import PaymentGateway.Db.Replay
import PaymentGateway.Services.Order
import PaymentGateway.Services.Payment
import PaymentGateway.Services.Webhook

/-! # Where the services commit

Each service commits at most once; after the commit, or rollback, of a callback nothing follows, and
before it a callback is careful about what it reads. -/

namespace PaymentGateway.Runs.Shapes

open PaymentGateway.Core.Ids PaymentGateway.Models PaymentGateway.Schemas
open PaymentGateway.Lib.Program PaymentGateway.Lib.DecimalArith
open PaymentGateway.Db.Statements PaymentGateway.Db.Replay
open PaymentGateway.Services.Order PaymentGateway.Services.Payment PaymentGateway.Services.Webhook

/-- The statement that writes. -/
def Commits (s : Stmt) : Prop := s = .commit

theorem commits_ends (s : Stmt) (h : Commits s) : Ends s := .inl h

section Queries

variable {α : Type} {c : Stmt → Prop} {rows : List α}

theorem quiet_scalarOneOrNone : (scalarOneOrNone rows).Quiet c := by
  match rows with
  | [] => trivial
  | [_] => trivial
  | _ :: _ :: _ => trivial

theorem quiet_scalarOne : (scalarOne rows).Quiet c := by
  match rows with
  | [] => trivial
  | [_] => trivial
  | _ :: _ :: _ => trivial

theorem quiet_execute {s : Stmt} (hs : ¬ c s) : (execute s).Quiet c := Prog.quiet_exec (σ := sql) hs

end Queries

theorem once_createOrder (merchant : Merchant) (payload : CreateOrderRequest) (ids : OrderIds) :
    (createOrder merchant payload ids).Once Commits := by
  unfold createOrder
  refine (quiet_execute (by simp [Commits])).once fun rows => ?_
  refine quiet_scalarOneOrNone.once fun existing => ?_
  cases existing with
  | some existing => trivial
  | none =>
    refine (quiet_execute (by simp [Commits])).once fun _ => ?_
    have hcommit : commitIntent.Once Commits := by
      refine .inr fun r => Prog.quiet_ofExcept.tryCatch fun e => ?_
      cases e with
      | integrityError => exact (quiet_execute (by simp [Commits])).bind fun _ => trivial
      | _ => trivial
    exact hcommit.quiet fun _ => (quiet_execute (by simp [Commits])).bind fun _ => trivial

theorem once_initiateUpi (merchant : Merchant) (payload : UpiInitiateRequest) (ids : InitiateIds) :
    (initiateUpi merchant payload ids).Once Commits := by
  unfold initiateUpi
  refine (quiet_execute (by simp [Commits])).once fun rows => ?_
  refine quiet_scalarOneOrNone.once fun intent => ?_
  cases intent with
  | none => trivial
  | some intent =>
    dsimp only
    split_ifs
    · trivial
    · refine (quiet_execute (by simp [Commits])).once fun rows => ?_
      refine quiet_scalarOneOrNone.once fun duplicate => ?_
      cases duplicate with
      | some duplicate => trivial
      | none =>
        refine Prog.quiet_ofExcept.once fun _ => ?_
        refine (quiet_execute (by simp [Commits])).once fun _ => ?_
        refine Prog.quiet_ofExcept.once fun _ => ?_
        refine (quiet_execute (by simp [Commits])).once fun _ => ?_
        refine .inr fun r => Prog.quiet_ofExcept.bind fun _ => ?_
        refine (quiet_execute (by simp [Commits])).bind fun _ => ?_
        exact (quiet_execute (by simp [Commits])).bind fun _ => trivial

theorem quiet_ensureAccountLocked {accountType : AccountType} {identifier : String}
    {merchantId : Option UUID} {id : UUID} :
    (ensureAccountLocked accountType identifier merchantId id).Quiet Ends := by
  unfold ensureAccountLocked
  refine (quiet_execute (by simp [Ends])).bind fun _ => ?_
  exact (quiet_execute (by simp [Ends])).bind fun _ => quiet_scalarOne

theorem quiet_postLedger {txn : Transaction} {intent : PaymentIntent} {amount : Decimal}
    {ids : CallbackIds} : (postLedger txn intent amount ids).Quiet Ends := by
  unfold postLedger
  refine quiet_ensureAccountLocked.bind fun _ => quiet_ensureAccountLocked.bind fun _ => ?_
  refine Prog.quiet_ofExcept.bind fun _ => (quiet_execute (by simp [Ends])).bind fun _ => ?_
  refine Prog.quiet_ofExcept.bind fun _ => (quiet_execute (by simp [Ends])).bind fun _ => ?_
  refine (quiet_execute (by simp [Ends])).bind fun _ => ?_
  exact quiet_execute (by simp [Ends])

/-- A statement that ends the transaction, and then a value or an exception. -/
theorem oneShot_end {α : Type} {s : Stmt} (hs : Ends s) {f : s.Resp → Sql α}
    (hf : ∀ r, (f r).Done) : (execute s >>= f).OneShot Ends := by
  refine .inl ⟨hs, fun r => ?_⟩
  cases r with
  | ok a => exact hf a
  | error e => trivial

theorem oneShot_processBankCallback (event : BankCallbackEvent) (psp : String) (amount : Decimal)
    (ids : CallbackIds) : (processBankCallback event psp amount ids).OneShot Ends := by
  unfold processBankCallback
  refine (quiet_execute (by simp [Ends])).oneShot fun rows => ?_
  refine quiet_scalarOneOrNone.oneShot fun txn => ?_
  cases txn with
  | none => trivial
  | some txn =>
    refine (quiet_execute (by simp [Ends])).oneShot fun rows => ?_
    refine quiet_scalarOne.oneShot fun intent => ?_
    refine Prog.quiet_ofExcept.oneShot fun differs => ?_
    split_ifs
    · trivial
    · exact oneShot_end (.inl rfl) fun _ => trivial
    · exact oneShot_end (.inl rfl) fun _ => trivial
    · unfold settle
      cases assertTransitions txn intent event with
      | error exc => exact oneShot_end (.inr rfl) fun _ => trivial
      | ok u =>
        refine (quiet_execute (by simp [Ends])).oneShot fun _ => ?_
        refine (quiet_execute (by simp [Ends])).oneShot fun _ => ?_
        have hledger : (if event = .paymentSuccess then postLedger txn intent amount ids
            else pure ()).Quiet Ends := by
          split_ifs
          · exact quiet_postLedger
          · trivial
        exact hledger.oneShot fun _ => oneShot_end (.inl rfl) fun _ => trivial

/-! ### What a callback reads -/

section Careful

variable {α β : Type} {past : List Stmt}

theorem follows_execute {s : Stmt} {f : s.Resp → Sql β} (hs : Careful past s)
    (hf : ∀ a, (f a).Follows Careful (past ++ [s])) : (execute s >>= f).Follows Careful past :=
  Prog.follows_exec_bind (σ := sql) hs hf

theorem follows_scalarOneOrNone {rows : List α} {f : Option α → Sql β}
    (hf : ∀ a, (f a).Follows Careful past) : (scalarOneOrNone rows >>= f).Follows Careful past := by
  match rows with
  | [] => exact hf none
  | [a] => exact hf (some a)
  | _ :: _ :: _ => trivial

theorem follows_scalarOne {rows : List α} {f : α → Sql β} (hf : ∀ a, (f a).Follows Careful past) :
    (scalarOne rows >>= f).Follows Careful past := by
  match rows with
  | [] => trivial
  | [a] => exact hf a
  | _ :: _ :: _ => trivial

theorem follows_ofExcept {r : Except Exc α} {f : α → Sql β} (hf : ∀ a, (f a).Follows Careful past) :
    (Prog.ofExcept r >>= f).Follows Careful past := by
  cases r with
  | ok a => exact hf a
  | error e => trivial

theorem follows_ensureAccountLocked {accountType : AccountType} {identifier : String}
    {merchantId : Option UUID} {id : UUID} {f : LedgerAccount → Sql β}
    (hf : ∀ a past', (f a).Follows Careful past') :
    (ensureAccountLocked accountType identifier merchantId id >>= f).Follows Careful past := by
  unfold ensureAccountLocked
  rw [Prog.bind_assoc]
  refine follows_execute trivial fun _ => ?_
  rw [Prog.bind_assoc]
  refine follows_execute ⟨_, _, _, List.mem_append_right _ (List.mem_singleton_self _)⟩ fun _ => ?_
  exact follows_scalarOne fun a => hf a _

theorem follows_postLedger {txn : Transaction} {intent : PaymentIntent} {amount : Decimal}
    {ids : CallbackIds} : (postLedger txn intent amount ids).Follows Careful past := by
  unfold postLedger
  refine follows_ensureAccountLocked fun _ _ => follows_ensureAccountLocked fun _ _ => ?_
  refine follows_ofExcept fun _ => follows_execute ⟨rfl, rfl⟩ fun _ => ?_
  refine follows_ofExcept fun _ => follows_execute ⟨rfl, rfl⟩ fun _ => ?_
  refine follows_execute ⟨rfl, rfl⟩ fun _ => ?_
  exact Prog.follows_exec (σ := sql) ⟨rfl, rfl⟩

theorem follows_processBankCallback (event : BankCallbackEvent) (psp : String) (amount : Decimal)
    (ids : CallbackIds) : (processBankCallback event psp amount ids).Follows Careful [] := by
  unfold processBankCallback
  refine follows_execute trivial fun rows => follows_scalarOneOrNone fun txn => ?_
  cases txn with
  | none => trivial
  | some txn =>
    refine follows_execute trivial fun rows => follows_scalarOne fun intent => ?_
    refine follows_ofExcept fun differs => ?_
    split_ifs
    · trivial
    · exact follows_execute trivial fun _ => trivial
    · exact follows_execute trivial fun _ => trivial
    · unfold settle
      cases assertTransitions txn intent event with
      | error exc => exact follows_execute trivial fun _ => trivial
      | ok u =>
        refine follows_execute ⟨rfl, rfl⟩ fun _ => follows_execute ⟨rfl, rfl⟩ fun _ => ?_
        refine Prog.Follows.bind ?_ fun _ _ _ => follows_execute trivial fun _ => trivial
        split_ifs
        · exact follows_postLedger
        · trivial

end Careful

end PaymentGateway.Runs.Shapes
