import PaymentGateway.Lib.Interference
import PaymentGateway.State.Invariant

/-! # The contract of a service, and its rules

While a service is under way the others keep the frame of what it has locked; by its own statements
it leaves the database as it is or makes a change of its kind (`contract`). `outline_execute`,
`outline_stage` and `outline_commit` are the rules for one statement, `outline_scalarOneOrNone` and
`outline_scalarOne` those for the result of a query. `Known` is what a session knows of the intents
that it has loaded. -/

namespace PaymentGateway.Outlines.Rules

open PaymentGateway.Core.Ids PaymentGateway.Models PaymentGateway.Db.Statements
open PaymentGateway.Db.Locking
open PaymentGateway.Lib PaymentGateway.Lib.Program PaymentGateway.Lib.Sessions
open PaymentGateway.Lib.Interference PaymentGateway.Db.Flush PaymentGateway.State.Invariant

/-- `J` holds of the committed state and `A` where a statement is executed; `effect` is what a
commit of the service does. -/
def contract (J : Db → Prop) (A : Stmt → Db → Session → Prop) (effect : Db → Db → Prop) :
    Contract database where
  assume s d l := Own d l ∧ J d ∧ A s d l
  rely l d d' := Frame l.locks d d'
  guar d d' := d' = d ∨ effect d d'
  refl _ d := .refl d
  trans := .trans

variable {α β : Type} {J : Db → Prop} {A : Stmt → Db → Session → Prop} {effect : Db → Db → Prop}
  {Q : Except Exc α → Session → Db → Prop} {l : Session} {d : Db}

@[simp] theorem execute_bind (s : Stmt) (f : s.Resp → Sql α) :
    (execute s >>= f) = Prog.call s fun r => Prog.ofExcept r >>= f := rfl

/-- A statement other than `commit`, in a state of which `P` is known. -/
theorem outline_execute {s : Stmt} {f : s.Resp → Sql α} (P : Db → Prop) (hs : s ≠ .commit)
    (hstable : ∀ d d', Frame l.locks d d' → P d → P d') (hP : P d)
    (hok : ∀ d a, P d → Own d l → J d → A s d l → (exec s d l).1 = .ok a →
      Outline (contract J A effect) Q (f a) (exec s d l).2.2 d)
    (herr : ∀ d e, (exec s d l).1 = .error e → J d → Q (.error e) (exec s d l).2.2 d) :
    Outline (contract J A effect) Q (execute s >>= f) l d := by
  rw [execute_bind]
  refine Outline.call P hstable hP fun d hP ⟨hown, hJ, hA⟩ => ?_
  have hd : database.after s d l = d := exec_db hs
  refine ⟨.inl hd, ?_⟩
  rw [hd]
  have hok := fun a => hok d a hP hown hJ hA
  have herr := herr d
  change Outline _ Q (Prog.ofExcept (exec s d l).1 >>= f) (exec s d l).2.2 d
  cases hr : (exec s d l).1 with
  | ok a => exact hok a hr
  | error e => exact herr e hr hJ

/-- A staged write. -/
theorem outline_stage {w : Write} {f : Unit → Sql α} (P : Db → Prop)
    (hstable : ∀ d d', Frame l.locks d d' → P d → P d') (hP : P d)
    (hok : ∀ d, P d → J d → Outline (contract J A effect) Q (f ())
      ⟨l.assign w, l.locks, l.inserted, l.pending ++ [w]⟩ d) :
    Outline (contract J A effect) Q (execute (.stage w) >>= f) l d :=
  outline_execute P (by simp) hstable hP (fun d _ hP _ hJ _ _ => hok d hP hJ)
    fun _ _ he => by cases he

/-- The exceptions of `scalar_one` and `scalar_one_or_none`. -/
def LookupError (e : Exc) : Prop := e = .multipleResultsFound ∨ e = .noResultFound

theorem not_lookupError_flush {l : Session} {d : Db} {e : Exc} (h : l.flush d = .error e) :
    ¬ LookupError e := by
  rcases flush_error h with rfl | rfl | rfl <;> simp [LookupError]

/-- `commit`, in a state of which `P` is known: what is flushed must be an effect of the service. -/
theorem outline_commit {f : Unit → Sql α} (P : Db → Prop)
    (hstable : ∀ d d', Frame l.locks d d' → P d → P d') (hP : P d)
    (hok : ∀ d d', P d → Own d l → J d → A .commit d l → l.flush d = .ok d' →
      (d' = d ∨ effect d d') ∧
      Outline (contract J A effect) Q (f ()) ⟨l.loaded, [], [], []⟩ d')
    (herr : ∀ d e, l.flush d = .error e → J d → Q (.error e) .closed d) :
    Outline (contract J A effect) Q (execute .commit >>= f) l d := by
  rw [execute_bind]
  refine Outline.call P hstable hP fun d hP ⟨hown, hJ, hA⟩ => ?_
  have hok := fun d' => hok d d' hP hown hJ hA
  have herr := herr d
  simp only [contract, Machine.after, Machine.session, database, exec]
  cases hf : l.flush d with
  | ok d' => exact hok d' hf
  | error e => exact ⟨.inl rfl, herr e hf hJ⟩

theorem outline_ofExcept {r : Except Exc β} {f : β → Sql α}
    (hok : ∀ b, r = .ok b → Outline (contract J A effect) Q (f b) l d)
    (herr : ∀ e, r = .error e → Q (.error e) l d) :
    Outline (contract J A effect) Q (Prog.ofExcept r >>= f) l d := by
  cases r with
  | ok b => exact hok b rfl
  | error e => exact herr e rfl

theorem outline_scalarOneOrNone {rows : List β} {f : Option β → Sql α}
    (hnone : rows = [] → Outline (contract J A effect) Q (f none) l d)
    (hone : ∀ a, rows = [a] → Outline (contract J A effect) Q (f (some a)) l d)
    (hmany : 2 ≤ rows.length → Q (.error .multipleResultsFound) l d) :
    Outline (contract J A effect) Q (scalarOneOrNone rows >>= f) l d := by
  match rows, hnone, hone, hmany with
  | [], hnone, _, _ => exact hnone rfl
  | [a], _, hone, _ => exact hone a rfl
  | _ :: _ :: _, _, _, hmany => exact hmany (by simp)

theorem outline_scalarOne {rows : List β} {f : β → Sql α}
    (hnone : rows = [] → Q (.error .noResultFound) l d)
    (hone : ∀ a, rows = [a] → Outline (contract J A effect) Q (f a) l d)
    (hmany : 2 ≤ rows.length → Q (.error .multipleResultsFound) l d) :
    Outline (contract J A effect) Q (scalarOne rows >>= f) l d := by
  match rows, hnone, hone, hmany with
  | [], hnone, _, _ => exact hnone rfl
  | [a], _, hone, _ => exact hone a rfl
  | _ :: _ :: _, _, _, hmany => exact hmany (by simp)

/-- The contracts of services whose effects keep `J` fit together: what a session guarantees by a
statement that does not wait is the frame of what the others have locked. -/
theorem fits_contract {ι : Type} {P : Config sql Db Session ι α → Move ι → Prop}
    {effects : ι → Db → Db → Prop} {Qs : ι → Except Exc α → Db → Prop}
    (hA : ∀ c i s k, P c (.fire i) → (c.procs i).prog = .call s k → A s c.shared (c.procs i).loc)
    (hkeeps : ∀ i d d', J d → effects i d d' → J d')
    (hstable : ∀ i r d d', Qs i r d → Frame [] d d' → Qs i r d')
    (hcrash : ∀ i d, Qs i (.error .crash) d) :
    Fits isolation J P (fun i => contract J A (effects i)) Qs where
  assume hP hpool hJ hprog := ⟨hpool.own _, hJ, hA _ _ _ _ hP hprog⟩
  keeps := by
    rintro i d d' hJ (rfl | h)
    · exact hJ
    · exact hkeeps i d d' hJ h
  rely _ _ _ _ hw _ _ := frame_exec hw
  stable hq hr := hstable _ _ _ _ hq hr
  crash := hcrash

/-! ### Refreshed rows -/

theorem refreshIntent_ok {id : UUID} {i : PaymentIntent}
    (h : (exec (.refreshIntent id) d l).1 = .ok i) : i ∈ d.intents ∧ i.id = id := by
  simp only [exec] at h
  split at h <;> cases h
  rename_i hf
  exact ⟨List.mem_of_find?_eq_some hf, of_decide_eq_true (List.find?_some hf :)⟩

theorem refreshTransaction_ok {id : UUID} {t : Transaction}
    (h : (exec (.refreshTransaction id) d l).1 = .ok t) : t ∈ d.transactions ∧ t.id = id := by
  simp only [exec] at h
  split at h <;> cases h
  rename_i hf
  exact ⟨List.mem_of_find?_eq_some hf, of_decide_eq_true (List.find?_some hf :)⟩

theorem refreshDelivery_ok {id : UUID} {w : WebhookDelivery}
    (h : (exec (.refreshDelivery id) d l).1 = .ok w) : w ∈ d.deliveries ∧ w.id = id := by
  simp only [exec] at h
  split at h <;> cases h
  rename_i hf
  exact ⟨List.mem_of_find?_eq_some hf, of_decide_eq_true (List.find?_some hf :)⟩

/-! ### The identity map -/

/-- What the session has loaded are intents of which at most the status has changed since. -/
def Known (l : Session) (d : Db) : Prop := ∀ x ∈ l.loaded, ∃ i ∈ d.intents, IntentKept [] x i

section Known

variable {d' : Db} {keep : List RowId} {rows : List PaymentIntent}

theorem known_closed : Known .closed d := fun _ hx => by cases hx

theorem Known.frame (h : Known l d) (hf : Frame keep d d') : Known l d' := by
  intro x hx
  obtain ⟨i, hi, hxi, -⟩ := h x hx
  obtain ⟨j, hj, hij, -⟩ := hf.intents.exists_mem hi
  exact ⟨j, hj, .trans _ _ _ ⟨hxi, fun hm => (by cases hm)⟩ ⟨hij, fun hm => (by cases hm)⟩⟩

theorem Known.load (h : Known l d) (hrows : ∀ r ∈ rows, r ∈ d.intents) {locks : List RowId} :
    Known { l with loaded := l.load rows, locks := locks } d := by
  intro x hx
  rcases List.mem_append.mp hx with hx | hx
  · exact h x hx
  · exact ⟨x, hrows x (List.mem_filter.mp hx).1, .refl x⟩

/-- The objects that a SELECT returns are its rows, up to their status. -/
theorem Known.objects (h : Known l d) (k : Keys d) (hrows : ∀ r ∈ rows, r ∈ d.intents)
    {x : PaymentIntent} (hx : x ∈ l.objects rows) : ∃ i ∈ rows, IntentKept [] x i := by
  obtain ⟨r, hr, rfl⟩ := List.mem_map.mp hx
  refine ⟨r, hr, ?_⟩
  cases hf : l.loaded.find? (·.id = r.id) with
  | none => exact .refl r
  | some y =>
    have hid : y.id = r.id := of_decide_eq_true (List.find?_some hf :)
    obtain ⟨i, hi, hyi⟩ := h y (List.mem_of_find?_eq_some hf)
    have hir : i.id = r.id := by rw [hyi.1, ← hid]
    rw [← Tables.eq_of_key k.intents hi (hrows r hr) hir]
    exact hyi

end Known

end PaymentGateway.Outlines.Rules
