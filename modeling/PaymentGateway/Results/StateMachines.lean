import PaymentGateway.Runs.Serial

/-! # The two state machines over serial runs

An intent and its transaction advance together, and only along the transitions of the source. -/

namespace PaymentGateway.Results.StateMachines

open PaymentGateway.Core.Ids PaymentGateway.Models PaymentGateway.Schemas
open PaymentGateway.Lib.Tables PaymentGateway.Db.Statements PaymentGateway.Services.StateMachine
open PaymentGateway.State.Changes PaymentGateway.State.Invariant PaymentGateway.Outlines.Rules
open PaymentGateway.Runs.Serial

/-- Every intent keeps its status or makes one transition, and a new intent is created. -/
structure Moves (d d' : Db) : Prop where
  old : ∀ i ∈ d.intents, ∃ i' ∈ d'.intents, i'.id = i.id ∧
    (i'.status = i.status ∨ i'.status ∈ paymentIntentTransitions i.status)
  new : ∀ i' ∈ d'.intents, (∃ i ∈ d.intents, i.id = i'.id) ∨ i'.status = .created

variable {d d' : Db} {i : PaymentIntent} {status : PaymentStatus}

theorem Moves.refl (d : Db) : Moves d d :=
  ⟨fun i hi => ⟨i, hi, rfl, .inl rfl⟩, fun i hi => .inl ⟨i, hi, rfl⟩⟩

/-- One intent takes a transition. -/
theorem Moves.withStatus (hk : Keys d) (hi : i ∈ d.intents)
    (ht : status ∈ paymentIntentTransitions i.status)
    (hd : d'.intents = d.intents.map (withStatus i.id status)) : Moves d d' := by
  refine ⟨fun j hj => ⟨_, hd ▸ List.mem_map_of_mem hj, withStatus_id, ?_⟩, fun j' hj' => ?_⟩
  · by_cases hji : j.id = i.id
    · obtain rfl := eq_of_key hk.intents hj hi hji
      rw [withStatus_self]
      exact .inr ht
    · rw [withStatus_of_ne hji]
      exact .inl rfl
  · rw [hd] at hj'
    obtain ⟨j, hj, rfl⟩ := List.mem_map.mp hj'
    exact .inl ⟨j, hj, withStatus_id.symm⟩

theorem moves_of_change (hk : Keys d) (h : Change d d') : Moves d d' := by
  cases h with
  | @ordered i h =>
    rw [h.db]
    refine ⟨fun j hj => ⟨j, List.mem_append_left _ hj, rfl, .inl rfl⟩, fun j hj => ?_⟩
    rcases List.mem_append.mp hj with hj | hj
    · exact .inl ⟨j, hj, rfl⟩
    · rw [List.mem_singleton.mp hj]; exact .inr h.created
  | initiated h =>
    exact .withStatus hk h.intent (by rw [h.created]; decide) (congrArg Db.intents h.db)
  | failed h =>
    exact .withStatus hk h.intent (by rw [h.processing]; decide) (congrArg Db.intents h.db)
  | succeeded h =>
    exact .withStatus hk h.intent (by rw [h.processing]; decide) (congrArg Db.intents h.db)

theorem moves_of_step (h : Reachable d) (hs : Step d d') : Moves d d' := by
  obtain ⟨c, -, rfl⟩ := hs
  rcases c.after_cases h.consistent with hc | hc
  · rw [hc]; exact .refl d
  · exact moves_of_change h.consistent.keys (Call.effect_change hc)

/-- The transactions of an intent. -/
def transactionsOf (d : Db) (i : PaymentIntent) : List Transaction :=
  d.transactions.filter (·.intentId = i.id)

theorem transactionsOf_cases (hc : Coupled d) (hi : i ∈ d.intents) :
    (i.status = .created ∧ transactionsOf d i = []) ∨
      ∃ t, transactionsOf d i = [t] ∧ coupled i.status t.state := by
  by_cases hs : i.status = .created
  · refine .inl ⟨hs, List.filter_eq_nil_iff.mpr fun t ht => ?_⟩
    simpa using (hc.created_iff i hi).mp hs t ht
  · have hle : (transactionsOf d i).length ≤ 1 :=
      length_filter_le_one hc.one fun t _ u _ ht hu => ht.trans hu.symm
    have hne : transactionsOf d i ≠ [] := fun hnil => hs <| (hc.created_iff i hi).mpr fun t ht => by
      simpa using List.filter_eq_nil_iff.mp hnil t ht
    have hpos := List.length_pos_of_ne_nil hne
    obtain ⟨t, ht⟩ := List.length_eq_one_iff.mp (by omega : (transactionsOf d i).length = 1)
    have hmem := List.mem_filter.mp (ht ▸ List.mem_singleton_self t : t ∈ transactionsOf d i)
    exact .inr ⟨t, ht, hc.pair t hmem.1 i hi (of_decide_eq_true hmem.2).symm⟩

/-- **Coupling.** In every state reached by calls an intent has no transaction and is created, or
has one, coupled with it; every further call moves statuses only along the transitions; a provider
reference identifies its transaction, and no lookup of a call meets two rows, or none where it needs
one. -/
theorem state_machines_coupled (h : Reachable d) :
    (∀ i ∈ d.intents, (i.status = .created ∧ transactionsOf d i = []) ∨
      ∃ t, transactionsOf d i = [t] ∧ coupled i.status t.state) ∧
    (∀ d', Step d d' → Moves d d') ∧
    (∀ t ∈ d.transactions, ∀ u ∈ d.transactions, t.pspReference = u.pspReference → t = u) ∧
    ∀ (c : Call) (e : Exc), (c.serve d).1 = .error e → ¬ LookupError e :=
  ⟨fun _ hi => transactionsOf_cases h.consistent.coupled hi, fun _ hs => moves_of_step h hs,
    fun _ ht _ hu he => eq_of_key h.pspUnique ht hu he,
    fun _ _ he => Call.no_lookupError h.consistent h.pspUnique he⟩

/-- After a failed payment the intent has failed, with its one transaction. -/
theorem state_machines_coupled_settled :
    (∃ i ∈ (Sample.settled Sample.rupees .paymentFailed).intents, i.status = .failed) ∧
    ∀ i ∈ (Sample.settled Sample.rupees .paymentFailed).intents,
      (i.status = .created ∧
          transactionsOf (Sample.settled Sample.rupees .paymentFailed) i = []) ∨
        ∃ t, transactionsOf (Sample.settled Sample.rupees .paymentFailed) i = [t] ∧
          coupled i.status t.state := by
  have h := state_machines_coupled (d := Sample.settled Sample.rupees .paymentFailed)
    (reachable_serveAll (reachable_empty _) (by decide))
  exact ⟨by decide, h.1⟩

end PaymentGateway.Results.StateMachines
