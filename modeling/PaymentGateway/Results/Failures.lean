import PaymentGateway.Outlines.Refusals
import PaymentGateway.Runs.Serial

/-! # Calls that raise

A call that raises, for whatever reason, leaves the database as it was; and what a call does commit
is never a success without its debit and credit, nor a balance without its entry. The database is
any database, and the store may refuse any statement up to the commit. -/

namespace PaymentGateway.Results.Failures

open PaymentGateway.Core.Ids PaymentGateway.Models PaymentGateway.Schemas
open PaymentGateway.Lib.Program PaymentGateway.Lib.Sessions PaymentGateway.Lib.Faults
open PaymentGateway.Db.Statements PaymentGateway.Db.Locking PaymentGateway.State.Changes
open PaymentGateway.Outlines.Webhook PaymentGateway.Outlines.Refusals PaymentGateway.Runs.Serial

/-- The call served in a fresh session, while the store refuses statements as `plan` says. -/
def serveWith (plan : List (Option Exc)) (c : Call) (d : Db) : Except Exc Reply × Db :=
  match c with
  | .createOrder merchant payload ids =>
    ((faulty database refusals plan).serve
      (Services.Order.createOrder merchant payload ids) d).map (·.map .order) id
  | .initiateUpi merchant payload ids =>
    ((faulty database refusals plan).serve
      (Services.Payment.initiateUpi merchant payload ids) d).map (·.map .payment) id
  | .processBankCallback event psp amount ids =>
    ((faulty database refusals plan).serve
      (Services.Webhook.processBankCallback event psp amount ids) d).map (·.map .callback) id

/-- A debit and a credit of one transaction and one amount are all that is new in the ledger. -/
def Posts (x y : LedgerEntry) (d d' : Db) : Prop :=
  d'.entries = d.entries ++ [x, y] ∧ x.entryType = .debit ∧ y.entryType = .credit ∧
    x.transactionId = y.transactionId ∧ x.amount = y.amount

/-- What succeeds is posted, and a balance changes by what is posted. -/
structure Accounted (d d' : Db) : Prop where
  state : ∀ t ∈ d'.transactions, t.state = .success → t ∈ d.transactions ∨
    ∃ x y, Posts x y d d' ∧ x.transactionId = t.id
  status : ∀ i ∈ d'.intents, i.status = .success → i ∈ d.intents ∨
    ∃ x y, Posts x y d d' ∧ ∃ t ∈ d'.transactions, t.id = x.transactionId ∧ t.intentId = i.id
  balance : ∀ a ∈ d'.accounts, a ∈ d.accounts ∨ a.balance.units = 0 ∨
    ∃ x y b, Posts x y d d' ∧ (x.accountId = a.id ∨ y.accountId = a.id) ∧ b.id = a.id ∧
      (b ∈ d.accounts ∨ b.balance.units = 0) ∧ a.balance.units = b.balance.units + x.amount.units

variable {d d' : Db} {t : Transaction} {i : PaymentIntent} {p : Posting}

theorem accounted_refl (d : Db) : Accounted d d :=
  ⟨fun _ ht _ => .inl ht, fun _ hi _ => .inl hi, fun _ ha => .inl ha⟩

theorem accounted_ordered (h : Ordered i d d') : Accounted d d' := by
  rw [h.db]
  refine ⟨fun _ ht _ => .inl ht, fun j hj hs => ?_, fun _ ha => .inl ha⟩
  rcases List.mem_append.mp hj with hj | hj
  · exact .inl hj
  · rw [List.mem_singleton.mp hj, h.created] at hs
    cases hs

/-- A new status other than SUCCESS. -/
theorem status_map {status : PaymentStatus} (hne : status ≠ .success) {id : UUID}
    {j : PaymentIntent} (hj : j ∈ d.intents.map (withStatus id status))
    (hs : j.status = .success) : j ∈ d.intents := by
  obtain ⟨k, hk, rfl⟩ := List.mem_map.mp hj
  unfold withStatus at hs ⊢
  split_ifs at hs ⊢
  · exact absurd hs hne
  · exact hk

theorem accounted_initiated (h : Initiated t i d d') : Accounted d d' := by
  rw [h.db]
  refine ⟨fun u hu hs => ?_, fun j hj hs => .inl (status_map (by decide) hj hs),
    fun _ ha => .inl ha⟩
  rcases List.mem_append.mp hu with hu | hu
  · exact .inl hu
  · rw [List.mem_singleton.mp hu, h.pending] at hs
    cases hs

theorem accounted_failed (h : Failed t i d d') : Accounted d d' := by
  rw [h.db]
  refine ⟨fun u hu hs => .inl ?_, fun j hj hs => .inl (status_map (by decide) hj hs),
    fun _ ha => .inl ha⟩
  obtain ⟨v, hv, rfl⟩ := List.mem_map.mp hu
  by_cases hid : v.id = t.id
  · unfold withState at hs
    rw [if_pos hid] at hs
    cases hs
  · rw [withState_of_ne hid]
    exact hv

/-- An account that is opened has nothing on it. -/
theorem balance_of_mem {as : List LedgerAccount} (h : NewAccounts d as) {a : LedgerAccount}
    (ha : a ∈ d.accounts ++ as) : a ∈ d.accounts ∨ a.balance.units = 0 := by
  rcases List.mem_append.mp ha with ha | ha
  · exact .inl ha
  · rw [h.made a ha]
    exact .inr rfl

theorem accounted_succeeded (h : Succeeded t i p d d') : Accounted d d' := by
  obtain ⟨x, y, hxy, hx, hy, hposts⟩ : ∃ x y, p.entries t i = [x, y] ∧
      (x.accountId = p.payer.id ∧ x.transactionId = t.id ∧ x.amount = i.amount) ∧
      y.accountId = p.payee.id ∧ Posts x y d d' :=
    ⟨_, _, rfl, ⟨rfl, rfl, rfl⟩, rfl, by rw [h.db]; exact ⟨rfl, rfl, rfl, rfl, rfl⟩⟩
  refine ⟨fun u hu hs => ?_, fun j hj hs => ?_, fun a ha => ?_⟩
  · rw [h.db] at hu
    obtain ⟨v, hv, rfl⟩ := List.mem_map.mp hu
    by_cases hid : v.id = t.id
    · exact .inr ⟨x, y, hposts, by rw [hx.2.1, withState_id, hid]⟩
    · rw [withState_of_ne hid]
      exact .inl hv
  · rw [h.db] at hj
    obtain ⟨k, hk, rfl⟩ := List.mem_map.mp hj
    by_cases hid : k.id = i.id
    · refine .inr ⟨x, y, hposts, withState t.id .success t, ?_, ?_, ?_⟩
      · rw [h.db]
        exact List.mem_map_of_mem h.txn
      · rw [withState_id, hx.2.1]
      · rw [withState_intentId, withStatus_id, hid, h.intentId]
    · rw [withStatus_of_ne hid]
      exact .inl hk
  · rw [h.db] at ha
    obtain ⟨b, hb, rfl⟩ := Posting.mem_accounts.mp ha
    by_cases hpayee : b.id = p.payee.id
    · refine .inr (.inr ⟨x, y, p.payee, hposts, .inr ?_, ?_, balance_of_mem h.opened h.payee_mem, ?_⟩)
      · rw [hy, withBalance_id, withBalance_id, hpayee]
      · rw [withBalance_id, withBalance_id, hpayee]
      · unfold withBalance
        rw [hx.2.2, ← h.payeeBalance, if_pos]
        exact (withBalance_id).trans hpayee
    · by_cases hpayer : b.id = p.payer.id
      · refine .inr (.inr ⟨x, y, p.payer, hposts, .inl ?_, ?_,
          balance_of_mem h.opened h.payer_mem, ?_⟩)
        · rw [hx.1, withBalance_id, withBalance_id, hpayer]
        · rw [withBalance_id, withBalance_id, hpayer]
        · rw [withBalance_of_ne (by rwa [withBalance_id]), hx.2.2, ← h.payerBalance]
          unfold withBalance
          rw [if_pos hpayer]
      · rw [withBalance_of_ne hpayer, withBalance_of_ne hpayee]
        exact (balance_of_mem h.opened hb).imp id .inl

theorem accounted_change (h : Change d d') : Accounted d d' := by
  cases h with
  | ordered h => exact accounted_ordered h
  | initiated h => exact accounted_initiated h
  | failed h => exact accounted_failed h
  | succeeded h => exact accounted_succeeded h

/-- How a call ends under refusals. -/
theorem clean_serveWith (plan : List (Option Exc)) (c : Call) (d : Db) :
    Clean c.effect d (serveWith plan c d).1 (serveWith plan c d).2 := by
  have hmap : ∀ {α : Type} {r : Except Exc α} {f : α → Reply} {d'},
      Clean c.effect d r d' → Clean c.effect d (r.map f) d' := by
    intro α r f d' h
    refine ⟨fun e he => ?_, h.2⟩
    cases r with
    | ok a => cases he
    | error e' => exact h.1 e' rfl
  cases c with
  | createOrder merchant payload ids => exact hmap (clean_createOrder.serve plan)
  | initiateUpi merchant payload ids => exact hmap (clean_initiateUpi.serve plan)
  | processBankCallback event psp amount ids => exact hmap (clean_processBankCallback.serve plan)

/-- **Failures.** Whatever the database is and whichever statements are refused, a call that raises
leaves the database as it was; and a call changes it, if at all, by its one effect, in which a
success has its debit and credit and a balance its entry. -/
theorem failed_call_keeps (plan : List (Option Exc)) (c : Call) (d : Db) :
    (∀ e, (serveWith plan c d).1 = .error e → (serveWith plan c d).2 = d) ∧
      ((serveWith plan c d).2 = d ∨ c.effect d (serveWith plan c d).2) ∧
      Accounted d (serveWith plan c d).2 := by
  have h := clean_serveWith plan c d
  refine ⟨h.1, h.2, ?_⟩
  rcases h.2 with he | he
  · rw [he]
    exact accounted_refl d
  · exact accounted_change (Call.effect_change he)

end PaymentGateway.Results.Failures
