import PaymentGateway.Results.StateMachines
import PaymentGateway.Runs.Concurrent

/-! # Lost updates

The lock on an intent does not help a request that has loaded the intent before, when it
authenticated: the identity map keeps what was loaded. While every request that goes on to write has
a current copy, no update is lost; with a stale copy a finished payment is taken up again. -/

namespace PaymentGateway.Results.LostUpdates

open PaymentGateway.Core.Ids PaymentGateway.Models PaymentGateway.Schemas
open PaymentGateway.Lib.Program PaymentGateway.Lib.Sessions PaymentGateway.Lib.Tables
open PaymentGateway.Db.Statements PaymentGateway.Api.Deps PaymentGateway.Services.StateMachine
open PaymentGateway.State.Changes PaymentGateway.State.Invariant
open PaymentGateway.Runs.Serial PaymentGateway.Runs.Concurrent PaymentGateway.Results.StateMachines

/-- The status is final. -/
def Final (status : PaymentStatus) : Prop := status = .success ∨ status = .failed

instance : DecidablePred Final := fun _ => inferInstanceAs (Decidable (_ ∨ _))

/-- The credits of an intent. -/
def creditsOf (d : Db) (i : PaymentIntent) : List LedgerEntry :=
  d.entries.filter fun e => e.entryType = .credit ∧
    ∃ t ∈ d.transactions, t.id = e.transactionId ∧ t.intentId = i.id

variable {d d' : Db} {i : PaymentIntent}

/-- A final status is kept. -/
theorem Moves.final (h : Moves d d') (hi : i ∈ d.intents) (hf : Final i.status) :
    ∃ i' ∈ d'.intents, i'.id = i.id ∧ i'.status = i.status := by
  obtain ⟨i', hi', hid, hs | hs⟩ := h.old i hi
  · exact ⟨i', hi', hid, hs⟩
  · rcases hf with hf | hf <;> rw [hf] at hs <;> cases hs

theorem final_run
    (hr : Relation.ReflTransGen (fun d d' => Consistent d ∧ (d' = d ∨ Change d d')) d d')
    (hi : i ∈ d.intents) (hf : Final i.status) :
    ∃ i' ∈ d'.intents, i'.id = i.id ∧ i'.status = i.status := by
  induction hr with
  | refl => exact ⟨i, hi, rfl, rfl⟩
  | tail _ hs ih =>
    obtain ⟨j, hj, hid, hst⟩ := ih
    obtain ⟨hd, rfl | hc⟩ := hs
    · exact ⟨j, hj, hid, hst⟩
    · obtain ⟨j', hj', hid', hst'⟩ :=
        Moves.final (moves_of_change hd.keys hc) hj (hst.symm ▸ hf)
      exact ⟨j', hj', hid'.trans hid, hst'.trans hst⟩

theorem transactionsOf_le_one (h : Consistent d) (i : PaymentIntent) :
    (transactionsOf d i).length ≤ 1 :=
  length_filter_le_one h.coupled.one fun _ _ _ _ ht hu => ht.trans hu.symm

/-- A merchant is credited at most once for an intent. -/
theorem creditsOf_le_one (h : Consistent d) (i : PaymentIntent) : (creditsOf d i).length ≤ 1 := by
  rcases hc : creditsOf d i with _ | ⟨e, es⟩
  · simp
  have hmem : e ∈ creditsOf d i := hc ▸ List.mem_cons_self
  obtain ⟨he, hcredit⟩ := List.mem_filter.mp hmem
  obtain ⟨hcredit, t, ht, hte, hti⟩ := of_decide_eq_true hcredit
  have hs : t.state = .success := by
    by_contra hs
    have hmem : e ∈ entriesOf d t := List.mem_filter.mpr ⟨he, decide_eq_true hte.symm⟩
    rw [h.posted.none t ht hs] at hmem
    cases hmem
  obtain ⟨j, hj, hjt⟩ := h.keys.intent_of t ht
  obtain ⟨x, y, hxy, hx, hy⟩ := h.posted.pair t ht hs j hj hjt
  -- all credits of the intent are credits of its one transaction
  have hsub : creditsOf d i = (entriesOf d t).filter fun e => e.entryType = .credit := by
    rw [creditsOf, entriesOf, List.filter_filter]
    refine List.filter_congr fun e' _ => ?_
    rw [← Bool.decide_and, decide_eq_decide]
    refine and_congr_right fun _ => ⟨?_, fun he' => ⟨t, ht, he'.symm, hti⟩⟩
    rintro ⟨u, hu, hue, hui⟩
    rw [← hue, eq_of_key h.coupled.one hu ht (hui.trans hti.symm)]
  rw [← hc, hsub, hxy]
  simp [hx.1, hy.1]

/-- **No lost update.** In every run of initiation requests and callbacks from a reachable database
in which no request works with a stale copy of an intent: a final status never changes again, and in
every state an intent has at most one transaction, and one credit. -/
theorem no_lost_update {ι : Type} [DecidableEq ι] {security : Security} {requests : ι → Request}
    {c c' : Config sql Db Session ι Reply} (h : Reachable d)
    (hr : database.Run CurrentMove (pool security requests d) c)
    (hr' : database.Run CurrentMove c c') :
    (∀ i ∈ c.shared.intents, Final i.status →
      ∃ i' ∈ c'.shared.intents, i'.id = i.id ∧ i'.status = i.status) ∧
    (∀ i ∈ c'.shared.intents, (transactionsOf c'.shared i).length ≤ 1) ∧
    ∀ i ∈ c'.shared.intents, (creditsOf c'.shared i).length ≤ 1 := by
  have hstart : InOrder requests (pool security requests d) := inOrder_start h.consistent
  obtain ⟨ho, -⟩ := inOrder_run hstart hr
  obtain ⟨ho', hg⟩ := inOrder_run ho hr'
  exact ⟨fun i hi hf => final_run hg hi hf, fun i _ => transactionsOf_le_one ho'.inv i,
    fun i _ => creditsOf_le_one ho'.inv i⟩

/-! ### Two initiations and their callbacks -/

namespace Sample

def security : Security := ⟨fun _ => .error "Invalid or expired token", fun key => key ++ "-hash"⟩

def credentials : Credentials := ⟨none, some "api-key"⟩

/-- An order that is not paid yet. -/
def unpaid : Db :=
  serveAll [Runs.Serial.Sample.ordering Runs.Serial.Sample.rupees]
    (Db.empty [Runs.Serial.Sample.shop])

/-- Alice and Bob initiate payments of the same order, and the bank calls back for each. -/
def requests : Fin 4 → Request
  | 0 => .initiateUpi credentials Runs.Serial.Sample.alicePays
    ⟨Runs.Serial.Sample.uuid 10, "alice", "alice"⟩
  | 1 => .initiateUpi credentials Runs.Serial.Sample.bobPays
    ⟨Runs.Serial.Sample.uuid 11, "bob", "bob"⟩
  | 2 => .bankCallback .paymentSuccess (newId "psp" "alice") (.finite false 100 0)
    ⟨Runs.Serial.Sample.uuid 12, Runs.Serial.Sample.uuid 13, Runs.Serial.Sample.uuid 14,
      Runs.Serial.Sample.uuid 15⟩
  | 3 => .bankCallback .paymentSuccess (newId "psp" "bob") (.finite false 100 0)
    ⟨Runs.Serial.Sample.uuid 16, Runs.Serial.Sample.uuid 17, Runs.Serial.Sample.uuid 18,
      Runs.Serial.Sample.uuid 19⟩

def start : Config sql Db Session (Fin 4) Reply := pool security requests unpaid

/-- Bob's request authenticates; then Alice's payment is initiated and succeeds. -/
def paid : Config sql Db Session (Fin 4) Reply :=
  database.fireAll (List.replicate 2 1 ++ List.replicate 9 0 ++ List.replicate 13 2) start

/-- Bob's request goes on with the intent it has loaded. -/
def reopened : Config sql Db Session (Fin 4) Reply := database.fireAll (List.replicate 7 1) paid

/-- Bob's payment succeeds too. -/
def paidAgain : Config sql Db Session (Fin 4) Reply :=
  database.fireAll (List.replicate 13 3) reopened

/-- Alice's payment alone. -/
def paidOnce : Config sql Db Session (Fin 4) Reply :=
  database.fireAll (List.replicate 9 0 ++ List.replicate 13 2) start

theorem unpaid_reachable : Reachable unpaid := reachable_serveAll (reachable_empty _) (by decide)

end Sample

/-- Alice's payment alone leaves the order paid, with one credit. -/
theorem no_lost_update_paidOnce :
    (∃ i ∈ Sample.paidOnce.shared.intents, Final i.status) ∧
      ∀ i ∈ Sample.paidOnce.shared.intents, (creditsOf Sample.paidOnce.shared i).length ≤ 1 := by
  have hr : database.Run CurrentMove Sample.start Sample.paidOnce :=
    Machine.run_fireAll (by decide +kernel)
  have h := no_lost_update Sample.unpaid_reachable hr .refl
  exact ⟨by decide +kernel, h.2.2⟩

/-- A stale copy: the status goes back from `SUCCESS`, the intent has two transactions, and once the
second succeeds its merchant is credited twice. -/
theorem lost_update :
    Reachable Sample.unpaid ∧
    database.Run (fun _ _ => True) Sample.start Sample.paid ∧
    database.Run (fun _ _ => True) Sample.paid Sample.reopened ∧
    database.Run (fun _ _ => True) Sample.reopened Sample.paidAgain ∧
    ¬ (∀ i ∈ Sample.paid.shared.intents, Final i.status →
      ∃ i' ∈ Sample.reopened.shared.intents, i'.id = i.id ∧ i'.status = i.status) ∧
    ¬ (∀ i ∈ Sample.reopened.shared.intents,
      (transactionsOf Sample.reopened.shared i).length ≤ 1) ∧
    ¬ ∀ i ∈ Sample.paidAgain.shared.intents,
      (creditsOf Sample.paidAgain.shared i).length ≤ 1 :=
  ⟨Sample.unpaid_reachable, Machine.run_fireAll (by decide +kernel),
    Machine.run_fireAll (by decide +kernel), Machine.run_fireAll (by decide +kernel),
    by decide +kernel, by decide +kernel, by decide +kernel⟩

end PaymentGateway.Results.LostUpdates
