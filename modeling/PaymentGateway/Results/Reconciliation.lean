import PaymentGateway.Runs.Serial
import PaymentGateway.Workers.Reconciliation

/-! # What reconciliation reaches

A sweep flags 500 of the stuck intents, and does not know what others have flagged. So an intent is
sure to be flagged only by a sweep that finds no more than 500. -/

namespace PaymentGateway.Results.Reconciliation

open PaymentGateway.Core.Ids PaymentGateway.Models PaymentGateway.Lib.Sessions
open PaymentGateway.Workers.Reconciliation

/-- When a sweep runs, and what it finds. -/
structure Moment where
  now : ℚ
  store : Store

variable {moments : List Moment} {intents : Finset UUID} {m : Moment} {order : Order Row}
  {id : UUID}

/-- The intents that are stuck. -/
def stuck (m : Moment) : List Row := stuckIntents (m.now - 3600) m.store

/-- The database and the log after a sweep. -/
def sweep (order : Order Row) (m : Moment) : World :=
  ((worker order).serve (reconcileStuckIntents m.now) ⟨m.store, []⟩).2

/-- The ids in the log. -/
def flagged (order : Order Row) (m : Moment) : List UUID := (sweep order m).warnings.map Prod.fst

/-- The intents stay stuck while the sweeps run. -/
def StayStuck (moments : List Moment) (intents : Finset UUID) : Prop :=
  ∀ id ∈ intents, ∀ m ∈ moments, id ∈ (stuck m).map Prod.fst

/-- **Every stuck intent is reached**, whatever rows the database returns to each sweep; and only
stuck intents are flagged, and no data is changed. -/
structure Reaches (moments : List Moment) (intents : Finset UUID) : Prop where
  stuckOnly : ∀ order, ∀ m ∈ moments, ∀ row ∈ (sweep order m).warnings, row ∈ stuck m
  unchanged : ∀ order, ∀ m ∈ moments, (sweep order m).store = m.store
  covers : ∀ orders : ℕ → Order Row, ∀ id ∈ intents,
    ∃ i m, moments[i]? = some m ∧ id ∈ flagged (orders i) m

/-! ### One sweep -/

theorem sweep_eq (order : Order Row) (m : Moment) :
    sweep order m = ⟨m.store, selected order m.now m.store⟩ := by
  unfold sweep
  rw [serve_reconcileStuckIntents]
  rfl

theorem mem_stuck_of_selected {row : Row} (h : row ∈ selected order m.now m.store) :
    row ∈ stuck m :=
  (order.perm _).mem_iff.mp (List.mem_of_mem_take h)

/-- A sweep that finds at most 500 intents flags them all. -/
theorem mem_flagged (h : (stuck m).length ≤ 500) (hid : id ∈ (stuck m).map Prod.fst) :
    id ∈ flagged order m := by
  have hall : selected order m.now m.store = order.arrange (stuck m) :=
    List.take_of_length_le ((order.perm _).length_eq.trans_le h)
  unfold flagged
  rw [sweep_eq, hall]
  exact ((order.perm (stuck m)).map Prod.fst).mem_iff.mpr hid

/-- The arrangement that has the rows with an id last. -/
def postpone (id : UUID) : Order Row where
  arrange rows := rows.filter (fun row => row.1 ≠ id) ++ rows.filter fun row => !decide (row.1 ≠ id)
  perm rows := List.filter_append_perm _ rows

theorem nodup_stuck (m : Moment) : ((stuck m).map Prod.fst).Nodup := by
  have hids : (stuck m).map Prod.fst = (m.store.db.intents.filter fun i =>
      i.status = .processing ∧ m.store.updatedAt i.id < m.now - 3600).map PaymentIntent.id := by
    unfold stuck stuckIntents
    rw [List.map_map]
    rfl
  rw [hids]
  exact m.store.unique.sublist (List.filter_sublist.map _)

/-- A sweep that finds more may miss any one of them. -/
theorem notMem_flagged (h : 500 < (stuck m).length) (id : UUID) :
    id ∉ flagged (postpone id) m := by
  have hone : ((stuck m).filter fun row => !decide (row.1 ≠ id)).length ≤ 1 := by
    have hcount := List.nodup_iff_count_le_one.mp (nodup_stuck m) id
    rw [List.count, List.countP_map, List.countP_eq_length_filter] at hcount
    refine le_of_eq_of_le (congrArg List.length (List.filter_congr fun row _ => ?_)) hcount
    simp [beq_eq_decide]
  have hlength := (List.filter_append_perm (fun row => decide (row.1 ≠ id)) (stuck m)).length_eq
  rw [List.length_append] at hlength
  have hlong : 500 ≤ ((stuck m).filter fun row => decide (row.1 ≠ id)).length := by omega
  have hselected : selected (postpone id) m.now m.store =
      ((stuck m).filter fun row => row.1 ≠ id).take 500 := List.take_append_of_le_length hlong
  unfold flagged
  rw [sweep_eq, hselected]
  rintro hid
  obtain ⟨row, hrow, rfl⟩ := List.mem_map.mp hid
  have hne := List.of_mem_filter (List.mem_of_mem_take hrow)
  simp at hne

/-! ### The sweeps together -/

/-- **Coverage.** The sweeps are sure to reach the intents that stay stuck if there are none, or if
one of them finds no more than 500. -/
theorem reaches_iff (h : StayStuck moments intents) :
    Reaches moments intents ↔ intents = ∅ ∨ ∃ m ∈ moments, (stuck m).length ≤ 500 := by
  constructor
  · intro hreaches
    by_contra hnot
    push Not at hnot
    obtain ⟨hne, hmany⟩ := hnot
    obtain ⟨id, hid⟩ := hne
    obtain ⟨i, m, hm, hflagged⟩ := hreaches.covers (fun _ => postpone id) id hid
    exact notMem_flagged (hmany m (List.mem_of_getElem? hm)) id hflagged
  · intro hcond
    refine ⟨fun order m _ row hrow => ?_, fun order m _ => ?_, fun orders id hid => ?_⟩
    · rw [sweep_eq] at hrow
      exact mem_stuck_of_selected hrow
    · rw [sweep_eq]
    · rcases hcond with rfl | ⟨m, hm, hfew⟩
      · exact absurd hid (Finset.notMem_empty id)
      · obtain ⟨i, hi⟩ := List.getElem?_of_mem hm
        exact ⟨i, m, hi, mem_flagged hfew (h id hid m hm)⟩

namespace Sample

def uuid := Runs.Serial.Sample.uuid

def intent (n : ℕ) : PaymentIntent where
  id := uuid n
  publicId := "ord_" ++ n.repr
  merchantId := Runs.Serial.Sample.shop.id
  amount := ⟨1000000, by norm_num⟩
  currency := "INR"
  status := .processing
  idempotencyKey := "order-" ++ n.repr
  description := none

theorem uuid_injOn {a b : ℕ} (ha : a < 2 ^ 128) (hb : b < 2 ^ 128) (h : uuid a = uuid b) :
    a = b := by
  have hmod : a % 2 ^ 128 = b % 2 ^ 128 := congrArg UUID.int h
  rwa [Nat.mod_eq_of_lt ha, Nat.mod_eq_of_lt hb] at hmod

theorem many_fit : 501 ≤ 2 ^ 128 := by norm_num

theorem three_fit : 3 ≤ 2 ^ 128 := by norm_num

/-- `n` intents that nobody touches. -/
def backlog (n : ℕ) (h : n ≤ 2 ^ 128) : Store where
  db := { Db.empty [Runs.Serial.Sample.shop] with intents := (List.range n).map intent }
  updatedAt _ := 0
  unique := by
    change (((List.range n).map intent).map PaymentIntent.id).Nodup
    rw [List.map_map]
    exact List.Nodup.map_on (fun a ha b hb hab => uuid_injOn
      ((List.mem_range.mp ha).trans_le h) ((List.mem_range.mp hb).trans_le h) hab) List.nodup_range

/-- Two sweeps, after two hours. -/
def sweeps (n : ℕ) (h : n ≤ 2 ^ 128) : List Moment :=
  [⟨7200, backlog n h⟩, ⟨8100, backlog n h⟩]

def ids (n : ℕ) : Finset UUID := (Finset.range n).image uuid

theorem stuck_eq {n : ℕ} (h : n ≤ 2 ^ 128) : ∀ m ∈ sweeps n h,
    stuck m = (List.range n).map fun k => (uuid k, "ord_" ++ k.repr) := by
  have hall : ∀ threshold : ℚ, 0 < threshold → stuckIntents threshold (backlog n h) =
      (List.range n).map fun k => (uuid k, "ord_" ++ k.repr) := by
    intro threshold hpos
    unfold stuckIntents
    rw [List.filter_eq_self.mpr, backlog, List.map_map]
    · rfl
    · intro i hi
      obtain ⟨k, -, rfl⟩ := List.mem_map.mp hi
      exact decide_eq_true ⟨rfl, hpos⟩
  intro m hm
  unfold sweeps at hm
  rcases List.mem_pair.mp hm with rfl | rfl
  · exact hall _ (by norm_num)
  · exact hall _ (by norm_num)

theorem stayStuck {n : ℕ} (h : n ≤ 2 ^ 128) : StayStuck (sweeps n h) (ids n) := by
  intro id hid m hm
  obtain ⟨k, hk, rfl⟩ := Finset.mem_image.mp hid
  rw [stuck_eq h m hm, List.map_map]
  exact List.mem_map.mpr ⟨k, List.mem_range.mpr (Finset.mem_range.mp hk), rfl⟩

end Sample

/-- Of 501 stuck intents, both of two sweeps may miss the same one. -/
theorem not_reaches_backlog :
    (Sample.ids 501).card ≤ (Sample.sweeps 501 Sample.many_fit).length * 500 ∧
      StayStuck (Sample.sweeps 501 Sample.many_fit) (Sample.ids 501) ∧
      ¬ Reaches (Sample.sweeps 501 Sample.many_fit) (Sample.ids 501) := by
  refine ⟨?_, Sample.stayStuck _, fun hreaches => ?_⟩
  · have hcard := Finset.card_image_le (s := Finset.range 501) (f := Sample.uuid)
    rw [Finset.card_range] at hcard
    exact hcard.trans (by decide)
  · have hmem : Sample.uuid 0 ∈ Sample.ids 501 :=
      Finset.mem_image_of_mem _ (Finset.mem_range.mpr (by norm_num))
    obtain ⟨i, m, hm, hflagged⟩ := hreaches.covers (fun _ => postpone (Sample.uuid 0)) _ hmem
    refine notMem_flagged ?_ (Sample.uuid 0) hflagged
    rw [Sample.stuck_eq _ m (List.mem_of_getElem? hm), List.length_map, List.length_range]
    norm_num

/-- Three stuck intents. -/
theorem reaches_three : Reaches (Sample.sweeps 3 Sample.three_fit) (Sample.ids 3) :=
  (reaches_iff (Sample.stayStuck _)).mpr (.inr ⟨_, List.mem_cons_self, by
    rw [Sample.stuck_eq _ _ List.mem_cons_self, List.length_map, List.length_range]; norm_num⟩)

end PaymentGateway.Results.Reconciliation
