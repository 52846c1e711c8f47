import PaymentGateway.Specs.Requests

/-! # Concurrent orders under one key

A pool of calls of `create_order` for one merchant and one payload. A call that has found no intent
of the key is attempting to add one until it has committed (`Attempting`). If no call looks for the
key meanwhile (`InTurn`), the first attempt adds the intent and every other call finds it. -/

namespace PaymentGateway.Runs.Orders

open PaymentGateway.Core.Ids PaymentGateway.Models PaymentGateway.Schemas
open PaymentGateway.Lib.Program PaymentGateway.Lib.Sessions PaymentGateway.Lib.Tables
open PaymentGateway.Db.Statements PaymentGateway.Services.Order
open PaymentGateway.State.Invariant PaymentGateway.Specs.Requests

/-- The calls before their first statement. -/
def pool {ι : Type} (merchant : Merchant) (payload : CreateOrderRequest) (ids : ι → OrderIds)
    (d : Db) : Config sql Db Session ι CreateOrderResponse :=
  database.start d fun i => createOrder merchant payload (ids i)

/-! ### Moves in turn -/

/-- The call is about to look for the key. -/
def Selecting : Sql CreateOrderResponse → Prop
  | .call (.selectIntentByKey _ _) _ => True
  | _ => False

/-- The call has found no intent of the key, and is about to stage its own or to commit it. -/
def Attempting : Sql CreateOrderResponse → Prop
  | .call (.stage _) _ => True
  | .call .commit _ => True
  | _ => False

instance : DecidablePred Selecting := fun p => by
  unfold Selecting; split <;> infer_instance

instance : DecidablePred Attempting := fun p => by
  unfold Attempting; split <;> infer_instance

/-- No call is killed, and none looks for the key while another attempts to add an intent. -/
def InTurn {ι : Type} (c : Config sql Db Session ι CreateOrderResponse) : Move ι → Prop
  | .fire i => Selecting (c.procs i).prog → ∀ j, ¬ Attempting (c.procs j).prog
  | .kill _ => False

instance {ι : Type} [Fintype ι] (c : Config sql Db Session ι CreateOrderResponse) (m : Move ι) :
    Decidable (InTurn c m) :=
  match m with
  | .fire _ => inferInstanceAs (Decidable (_ → ∀ _, ¬ _))
  | .kill _ => isFalse id

/-! ### Where a call stands -/

section Phases

variable {ι : Type} {merchant : Merchant} {payload : CreateOrderRequest} {ids : OrderIds}
  {draws : ι → OrderIds} {d₀ d d' : Db} {l : Session} {p : Sql CreateOrderResponse}
  {x : PaymentIntent}

/-- The merchant has no intent of the key. -/
abbrev Unused (merchant : Merchant) (payload : CreateOrderRequest) (d : Db) : Prop :=
  replayOf payload.idempotencyKey merchant.id d = none

/-- The database is `d₀`, or has the one intent more that a call has added to it. -/
inductive Stored (merchant : Merchant) (payload : CreateOrderRequest) (draws : ι → OrderIds)
    (d₀ d : Db) : Prop
  | unchanged (hd : d = d₀)
  | added (i : ι) (hnone : Unused merchant payload d₀)
      (hd : d = withIntent merchant payload (draws i) d₀)

/-- What is left after the commit. -/
def reading (ids : OrderIds) : Sql CreateOrderResponse := do
  let intent ← execute (.refreshIntent ids.intentId)
  return ⟨intent.publicId, intent.idempotencyKey, intent.amount, intent.currency, intent.status⟩

/-- Where a call stands that began in `d₀`, when the database is `d`. -/
inductive Phase (merchant : Merchant) (payload : CreateOrderRequest) (ids : OrderIds) (d₀ d : Db) :
    Sql CreateOrderResponse → Session → Prop
  | selecting : Phase merchant payload ids d₀ d (createOrder merchant payload ids) .closed
  | staging (hd : d = d₀) (hnone : Unused merchant payload d₀) :
      Phase merchant payload ids d₀ d (addOrder merchant payload ids) .closed
  | committing (hd : d = d₀) (hnone : Unused merchant payload d₀) :
      Phase merchant payload ids d₀ d (commitIntent >>= fun _ => reading ids)
        ⟨[], [], [], [newIntent merchant payload ids]⟩
  | refreshing {l : Session} (hnone : Unused merchant payload d₀)
      (hd : d = withIntent merchant payload ids d₀) :
      Phase merchant payload ids d₀ d (reading ids) l
  | ended {x : PaymentIntent} {l : Session}
      (h : replayOf payload.idempotencyKey merchant.id d = some x) :
      Phase merchant payload ids d₀ d (.ret (orderResponse x)) l

theorem replayOf_withIntent (hnone : Unused merchant payload d₀) :
    replayOf payload.idempotencyKey merchant.id (withIntent merchant payload ids d₀) =
      some (orderRow merchant payload ids) := by
  unfold Unused replayOf at hnone
  unfold replayOf withIntent
  rw [List.find?_append, hnone, Option.none_or]
  exact List.find?_cons_of_pos (by simp [orderRow])

/-- The key is unused only as long as nothing is added. -/
theorem Stored.of_unused (h : Stored merchant payload draws d₀ d)
    (hnone : Unused merchant payload d) : d = d₀ := by
  cases h with
  | unchanged hd => exact hd
  | added i hnone' hd =>
    rw [hd, Unused, replayOf_withIntent hnone'] at hnone
    cases hnone

/-- The intents of the key are the one that is replayed. -/
theorem Stored.rows (k : Keys d₀) (h : Stored merchant payload draws d₀ d) :
    (d.intents.filter fun i => i.idempotencyKey = payload.idempotencyKey ∧
      i.merchantId = merchant.id) = (replayOf payload.idempotencyKey merchant.id d).toList := by
  cases h with
  | unchanged hd => rw [hd]; exact rows_replayOf k _ _
  | added i hnone hd =>
    have hrows := rows_replayOf k payload.idempotencyKey merchant.id
    rw [hnone] at hrows
    rw [hd, replayOf_withIntent hnone]
    exact (filter_append_of_pos ⟨rfl, rfl⟩).trans (congrArg (· ++ _) hrows)

theorem Stored.ownKey (hown : OwnKey merchant payload d₀) (h : Stored merchant payload draws d₀ d) :
    OwnKey merchant payload d := by
  cases h with
  | unchanged hd => rw [hd]; exact hown
  | added i hnone hd =>
    rw [hd]
    intro j hj hkey
    rcases List.mem_append.mp hj with hj | hj
    · exact hown j hj hkey
    · rw [List.mem_singleton.mp hj]
      rfl

theorem Phase.proceed (h : Phase merchant payload ids d₀ d p l) :
    Phase merchant payload ids d₀ d p (database.proceed p l).loc := by
  cases h with
  | selecting => exact .selecting
  | staging hd hnone => exact .staging hd hnone
  | committing hd hnone => exact .committing hd hnone
  | refreshing hnone hd => exact .refreshing hnone hd
  | ended h => exact .ended h

/-- What one statement of a call does. -/
structure Turn (merchant : Merchant) (payload : CreateOrderRequest) (ids : OrderIds) (d₀ d : Db)
    (p : Sql CreateOrderResponse) (d' : Db) (p' : Sql CreateOrderResponse) (l' : Session) :
    Prop where
  phase : Phase merchant payload ids d₀ d' p' l'
  db : d' = d ∨ (Attempting p ∧ Unused merchant payload d ∧ d' = withIntent merchant payload ids d)
  attempting : Attempting p' → Attempting p ∨ Selecting p

theorem turn_selecting (k : Keys d₀) (h : Stored merchant payload draws d₀ d) :
    Turn merchant payload ids d₀ d (createOrder merchant payload ids) d
      (scalarOneOrNone (Session.closed.objects (d.intents.filter fun i =>
          i.idempotencyKey = payload.idempotencyKey ∧ i.merchantId = merchant.id)) >>= fun existing =>
        match existing with
        | some existing => return orderResponse existing
        | none => addOrder merchant payload ids)
      { Session.closed with loaded := Session.closed.load (d.intents.filter fun i =>
          i.idempotencyKey = payload.idempotencyKey ∧ i.merchantId = merchant.id) } := by
  rw [h.rows k, objects_closed, load_closed]
  cases hreplay : replayOf payload.idempotencyKey merchant.id d with
  | some x => exact ⟨.ended hreplay, .inl rfl, fun ha => absurd ha id⟩
  | none =>
    have hd : d = d₀ := h.of_unused hreplay
    exact ⟨.staging hd (hd ▸ hreplay), .inl rfl, fun _ => .inr trivial⟩

theorem turn_staging (hd : d = d₀) (hnone : Unused merchant payload d₀) :
    Turn merchant payload ids d₀ d (addOrder merchant payload ids) d
      (commitIntent >>= fun _ => reading ids) ⟨[], [], [], [newIntent merchant payload ids]⟩ :=
  ⟨.committing hd hnone, .inl rfl, fun _ => .inl trivial⟩

/-- What the calls may rely on: the merchant exists, no other has used the key, and the ids that a
call draws are new and fit their column. -/
structure Ready (merchant : Merchant) (payload : CreateOrderRequest) (ids : OrderIds) (d : Db) :
    Prop where
  stored : ∃ m ∈ d.merchants, m.id = merchant.id
  own : OwnKey merchant payload d
  new : NewOrder ids d
  fits : (newId "ord" ids.token).length ≤ 64

theorem flush_added (hready : Ready merchant payload ids d) (hnone : Unused merchant payload d) :
    Session.flush ⟨[], [], [], [newIntent merchant payload ids]⟩ d =
      .ok (withIntent merchant payload ids d) := by
  rw [flush_one rfl rfl, apply_newIntent, if_pos hready.fits]
  exact if_pos ⟨hready.stored, unclaimed hready.new hready.own hnone⟩

theorem find_added (hready : Ready merchant payload ids d) :
    (withIntent merchant payload ids d).intents.find? (·.id = ids.intentId) =
      some (orderRow merchant payload ids) :=
  find_append (x := orderRow merchant payload ids) (·.id) fun i hi => (hready.new i hi).1

/-- A statement of a call. -/
theorem Phase.turn {s : Stmt} {next : Except Exc s.Resp → Sql CreateOrderResponse} (k : Keys d₀)
    (hready : Ready merchant payload ids d₀) (hs : Stored merchant payload draws d₀ d)
    (h : Phase merchant payload ids d₀ d p l) (hp : p = Prog.call s next) :
    Turn merchant payload ids d₀ d p (exec s d l).2.1 (next (exec s d l).1) (exec s d l).2.2 := by
  cases h with
  | selecting => cases hp; exact turn_selecting k hs
  | staging hd hnone => cases hp; exact turn_staging hd hnone
  | committing hd hnone =>
    cases hp
    subst hd
    simp only [exec, flush_added hready hnone]
    exact ⟨.refreshing hnone rfl, .inr ⟨trivial, hnone, rfl⟩, fun ha => absurd ha id⟩
  | refreshing hnone hd =>
    cases hp
    subst hd
    simp only [exec, find_added hready]
    exact ⟨.ended (replayOf_withIntent hnone), .inl rfl, fun ha => absurd ha id⟩
  | ended h => cases hp

end Phases

/-! ### The invariant of a run -/

section Runs

variable {ι : Type} {merchant : Merchant} {payload : CreateOrderRequest} {draws : ι → OrderIds}
  {d₀ : Db} {i : ι} {c c' : Config sql Db Session ι CreateOrderResponse}

/-- Every call stands somewhere, and at most one of them attempts to add its intent. -/
structure Inv (merchant : Merchant) (payload : CreateOrderRequest) (draws : ι → OrderIds) (d₀ : Db)
    (c : Config sql Db Session ι CreateOrderResponse) : Prop where
  stored : Stored merchant payload draws d₀ c.shared
  phase : ∀ i, Phase merchant payload (draws i) d₀ c.shared (c.procs i).prog (c.procs i).loc
  one : ∀ i j, Attempting (c.procs i).prog → Attempting (c.procs j).prog → i = j

theorem inv_pool : Inv merchant payload draws d₀ (pool merchant payload draws d₀) :=
  ⟨.unchanged rfl, fun _ => .selecting, fun _ _ ha => absurd ha id⟩

/-- Another call's intent is added: this call has not looked for the key yet. -/
theorem Phase.others {ids : OrderIds} {d d' : Db} {p : Sql CreateOrderResponse} {l : Session}
    (h : Phase merchant payload ids d₀ d p l) (hnone : Unused merchant payload d)
    (hp : ¬ Attempting p) : Phase merchant payload ids d₀ d' p l := by
  cases h with
  | selecting => exact .selecting
  | staging => exact absurd trivial hp
  | committing => exact absurd trivial hp
  | refreshing hnone' hd =>
    rw [hd, Unused, replayOf_withIntent hnone'] at hnone
    cases hnone
  | ended h => rw [Unused, h] at hnone; cases hnone

/-- A call that has ended answers with the intent of the key. -/
theorem Inv.answered (h : Inv merchant payload draws d₀ c) {r : Except Exc CreateOrderResponse}
    (hr : (c.procs i).prog.result? = some r) :
    ∃ x, replayOf payload.idempotencyKey merchant.id c.shared = some x ∧
      r = .ok (orderResponse x) := by
  have hph := h.phase i
  generalize (c.procs i).prog = p at hph hr
  generalize (c.procs i).loc = l at hph
  cases hph with
  | selecting => cases hr
  | staging => cases hr
  | committing => cases hr
  | refreshing => cases hr
  | ended hx => cases hr; exact ⟨_, hx, rfl⟩

variable [DecidableEq ι]

/-- A call that attempts now did so before, or has just found no intent of the key. -/
theorem attempting_fire {j : ι} (ht : Attempting ((database.fire c i).procs i).prog →
      Attempting (c.procs i).prog ∨ Selecting (c.procs i).prog)
    (hj : Attempting ((database.fire c i).procs j).prog) :
    Attempting (c.procs j).prog ∨ (j = i ∧ Selecting (c.procs j).prog) := by
  by_cases hji : j = i
  · subst hji
    exact (ht hj).imp id fun hs => ⟨rfl, hs⟩
  · rw [Machine.fire_of_ne hji] at hj
    exact .inl hj

theorem Inv.fire (k : Keys d₀) (hready : ∀ i, Ready merchant payload (draws i) d₀)
    (h : Inv merchant payload draws d₀ c) (hP : InTurn c (.fire i)) (he : database.Enabled c i) :
    Inv merchant payload draws d₀ (database.fire c i) := by
  obtain ⟨s, next, hp, -⟩ := he
  have ht := (h.phase i).turn k (hready i) h.stored hp
  have hself : Attempting ((database.fire c i).procs i).prog →
      Attempting (c.procs i).prog ∨ Selecting (c.procs i).prog := by
    rw [Machine.fire_self hp]
    exact ht.attempting
  refine ⟨?_, fun j => ?_, fun a b ha hb => ?_⟩
  · rw [Machine.fire_call hp]
    change Stored merchant payload draws d₀ (exec s c.shared (c.procs i).loc).2.1
    rcases ht.db with hd | ⟨-, hnone, hd⟩
    · rw [hd]; exact h.stored
    · have hsame := h.stored.of_unused hnone
      exact .added i (hsame ▸ hnone)
        (hd.trans (congrArg (withIntent merchant payload (draws i)) hsame))
  · rw [Machine.fire_call hp]
    by_cases hj : j = i
    · subst hj
      simp only [Function.update_self]
      exact ht.phase.proceed
    · simp only [Function.update_of_ne hj]
      change Phase _ _ _ _ (exec s c.shared (c.procs i).loc).2.1 _ _
      rcases ht.db with hd | ⟨ha, hnone, -⟩
      · rw [hd]; exact h.phase j
      · exact (h.phase j).others hnone fun hb => hj (h.one j i hb ha)
  · rcases attempting_fire hself ha with ha' | ⟨rfl, hs⟩
    · rcases attempting_fire hself hb with hb' | ⟨rfl, hs⟩
      · exact h.one a b ha' hb'
      · exact absurd ha' (hP hs a)
    · rcases attempting_fire hself hb with hb' | ⟨rfl, -⟩
      · exact absurd hb' (hP hs b)
      · rfl

/-- **Every state of a run in turn** has the invariant. -/
theorem Inv.run (k : Keys d₀) (hready : ∀ i, Ready merchant payload (draws i) d₀)
    (h : Inv merchant payload draws d₀ c) (hr : database.Run InTurn c c') :
    Inv merchant payload draws d₀ c' := by
  refine hr.invariant (Inv merchant payload draws d₀) h ?_
  intro c m c' h hP hs
  cases hs with
  | fire he => exact h.fire k hready hP he
  | kill hd => exact absurd hP id

end Runs

end PaymentGateway.Runs.Orders
