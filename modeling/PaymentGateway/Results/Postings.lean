import PaymentGateway.Services.Ledger
import PaymentGateway.Specs.Callback

/-! # Two ways to post a payment

`process_bank_callback` posts its entries itself, by account helpers of its own; `post_double_entry`
of the ledger service does it again. For an amount above zero they are one program but for what
they return, so they agree on every database and in every session. -/

namespace PaymentGateway.Results.Postings

open PaymentGateway.Core.Ids PaymentGateway.Models
open PaymentGateway.Lib.Program PaymentGateway.Lib.Sessions PaymentGateway.Lib.DecimalArith
open PaymentGateway.Db.Statements PaymentGateway.Services.Webhook PaymentGateway.Services.Ledger

/-- Run in one session on one database, both programs issue the same statements (so that one that
fails does it at the same statement as the other), end alike but for the value they return, and
leave the same database and the same session: its locks, the accounts it has inserted, and the
balances and the entries that its commit will write. -/
structure SameEffect {α β : Type} (p : Sql α) (q : Sql β) (d : Db) (l : Session) : Prop where
  statements : database.trace p d l = database.trace q d l
  outcome : (database.run p d l).1.map (fun _ => ()) = (database.run q d l).1.map (fun _ => ())
  tables : (database.run p d l).2.1 = (database.run q d l).2.1
  session : (database.run p d l).2.2 = (database.run q d l).2.2

/-- What `post_double_entry` draws, if it draws what the callback does. -/
def postingIds (ids : CallbackIds) : PostingIds :=
  ⟨ids.payerAccountId, ids.merchantAccountId, ids.debitEntryId, ids.creditEntryId⟩

/-- A program that forgets what it returns. -/
theorem sameEffect_forget {α : Type} {p : Sql α} {q : Sql Unit} (h : (p >>= fun _ => .ret ()) = q)
    (d : Db) (l : Session) : SameEffect q p d l := by
  subst h
  refine ⟨database.trace_map p (fun _ => ()) d l, ?_, ?_, ?_⟩
  · rw [database.run_map]
    cases (database.run p d l).1 <;> rfl
  · rw [database.run_map]
  · rw [database.run_map]

variable {txn : Transaction} {intent : PaymentIntent} {amount : Decimal} {ids : CallbackIds}

/-- The two account helpers are one program, although each looks at the type in its own way. -/
theorem getOrCreateAccount_eq : getOrCreateAccount = ensureAccountLocked := by
  funext accountType identifier merchantId newId
  cases accountType <;> rfl

theorem notAboveZero_eq (h : amount.Positive) : notAboveZero amount = .ok false := by
  unfold notAboveZero
  rw [le_zero_iff.mpr h]
  rfl

/-- The postings are one program but for the value returned. -/
theorem postDoubleEntry_forget (h : amount.Positive) :
    (postDoubleEntry txn txn.vpa intent.merchantId amount postingCurrency (postingIds ids) >>=
      fun _ => .ret ()) = postLedger txn intent amount ids := by
  refine Eq.trans ?_ (Prog.bind_ret (postLedger txn intent amount ids))
  unfold postDoubleEntry postLedger
  rw [notAboveZero_eq h, getOrCreateAccount_eq]
  -- The guard lets the amount pass.
  change (ensureAccountLocked .virtual txn.vpa none ids.payerAccountId >>= _) >>= _ = _
  simp only [Prog.bind_assoc]
  rfl

/-- Whatever the caller goes on to do, its commit for one, it may post either way. -/
theorem postDoubleEntry_then {β : Type} (h : amount.Positive) (next : Sql β) :
    (postDoubleEntry txn txn.vpa intent.merchantId amount postingCurrency (postingIds ids) >>=
      fun _ => next) = postLedger txn intent amount ids >>= fun _ => next := by
  rw [← postDoubleEntry_forget h, Prog.bind_assoc]
  rfl

/-- **The two postings have the same effect**, whatever the database holds and whatever the
transaction has done before, and the commit that follows has. -/
theorem postLedger_sameEffect (h : amount.Positive) (d : Db) (l : Session) :
    SameEffect (postLedger txn intent amount ids)
      (postDoubleEntry txn txn.vpa intent.merchantId amount postingCurrency (postingIds ids)) d l ∧
    SameEffect (postLedger txn intent amount ids >>= fun _ => execute .commit)
      (postDoubleEntry txn txn.vpa intent.merchantId amount postingCurrency (postingIds ids) >>=
        fun _ => execute .commit) d l := by
  refine ⟨sameEffect_forget (postDoubleEntry_forget h) d l, ?_⟩
  rw [postDoubleEntry_then h]
  exact ⟨rfl, rfl, rfl, rfl⟩

open Specs.Callback in
/-- Alice's payment of 100 rupees, posted either way. -/
theorem postLedger_sameEffect_alice :
    SameEffect
      (postLedger (Sample.transaction "alice@bank") Sample.intent Sample.hundred Sample.drawn)
      (postDoubleEntry (Sample.transaction "alice@bank") "alice@bank" Sample.intent.merchantId
        Sample.hundred "INR" (postingIds Sample.drawn))
      (Sample.waiting Runs.Serial.Sample.alicePays) database.closed := by
  have h : Sample.hundred.Positive := .inr ⟨100, by simp [Sample.hundred, Decimal.value?, signed],
    by norm_num⟩
  exact (postLedger_sameEffect h _ _).1

end PaymentGateway.Results.Postings
