import PaymentGateway.Lib.Linearizability
import PaymentGateway.Results.Serializability

/-! # Callbacks that die

A callback that dies between two statements has committed nothing, and what it locked is given up.
The others are served as if it had never come, each at the moment at which it ends: a callback that
starts after another has ended is served after it. -/

namespace PaymentGateway.Results.Crashes

open PaymentGateway.Models PaymentGateway.Lib.Program PaymentGateway.Lib.Sessions
open PaymentGateway.Lib.Linearizability PaymentGateway.Db.Statements PaymentGateway.Db.Locking
open PaymentGateway.Db.Replay PaymentGateway.Services.Webhook PaymentGateway.Runs.Shapes
open PaymentGateway.Runs.Serial PaymentGateway.Results.Serializability

variable {ι : Type} {cs : ι → Callback} {d : Db} {c c' : Config sql Db Session ι CallbackResult}

/-- The callbacks before their first statement. -/
abbrev callbackPool (cs : ι → Callback) (d : Db) : Config sql Db Session ι CallbackResult :=
  database.start d fun i => (cs i).prog

/-- Those that have ended were served one after another in this order, or were killed. -/
structure ServedIn (cs : ι → Callback) (d : Db) (c : Config sql Db Session ι CallbackResult)
    (order : List ι) (killed : Finset ι) : Prop where
  nodup : order.Nodup
  apart : ∀ i ∈ killed, i ∉ order
  ended : ∀ i, (c.procs i).prog.Done ↔ i ∈ order ∨ i ∈ killed
  dead : ∀ i ∈ killed, (c.procs i).prog = .raise .crash
  shared : (database.serial (fun i => (cs i).prog) order d).2 = c.shared
  results : ∀ i r, (i, r) ∈ (database.serial (fun i => (cs i).prog) order d).1 ↔
    i ∈ order ∧ (c.procs i).prog.result? = some r

variable [DecidableEq ι]

theorem servedIn_of_linearized {order : List ι} {killed : Finset ι}
    (h : Linearized database Ends (fun i => (cs i).prog) d c order killed) :
    ServedIn cs d c order killed := by
  have hgo : ∀ i, ¬ ((cs i).prog).Done := fun i => id
  have halive : ∀ i ∈ order, i ∉ killed := fun i hi hk => by
    have hdone := (h.served.done i).mp hi
    rw [revive_of_mem hk] at hdone
    exact hgo i hdone
  obtain ⟨rs, hrs, hres⟩ := h.served.serial
  have hresults : (database.serial (fun i => (cs i).prog) order d).1 = rs :=
    congrArg (·.1) hrs
  have hshared : (database.serial (fun i => (cs i).prog) order d).2 = c.shared :=
    congrArg (·.2) hrs
  have horder : rs.map (·.1) = order := hresults ▸ fst_serial order d
  have hmem : ∀ i r, (i, r) ∈ rs → i ∈ order := fun i r hir => by
    rw [← horder]
    exact List.mem_map.mpr ⟨(i, r), hir, rfl⟩
  have hresult : ∀ i r, (i, r) ∈ rs → (c.procs i).prog.result? = some r := fun i r hir => by
    rw [← revive_of_notMem (M := database) (p := fun i => (cs i).prog)
      (halive i (hmem i r hir))]
    exact hres i r hir
  refine ⟨h.served.nodup, fun i hk hi => halive i hi hk, fun i => ?_, fun i hk => ?_, hshared,
    fun i r => ?_⟩
  · by_cases hk : i ∈ killed
    · rw [h.dead i hk]
      exact ⟨fun _ => .inr hk, fun _ => trivial⟩
    · rw [← revive_of_notMem (M := database) (p := fun i => (cs i).prog) hk,
        ← h.served.done i]
      exact ⟨.inl, fun ho => ho.resolve_right hk⟩
  · rw [h.dead i hk]
    rfl
  · rw [hresults]
    refine ⟨fun hir => ⟨hmem i r hir, hresult i r hir⟩, fun ⟨hi, hr⟩ => ?_⟩
    rw [← horder] at hi
    obtain ⟨⟨j, r'⟩, hjr, rfl⟩ := List.mem_map.mp hi
    have hsame := hresult j r' hjr
    rw [hr] at hsame
    cases hsame
    exact hjr

/-- **Callbacks are linearizable, whatever dies**: at any moment of a run the callbacks that have
ended have the results, and the database is the one, of serving them in the order in which they
ended, without those that were killed; and what ends later comes later in the order. -/
theorem callbacks_linearizable
    (hr : database.Run (fun _ _ => True) (callbackPool cs d) c)
    (hr' : database.Run (fun _ _ => True) c c') :
    ∃ order later killed killed', killed ⊆ killed' ∧ ServedIn cs d c order killed ∧
      ServedIn cs d c' (order ++ later) killed' := by
  have hquiet : ∀ s d l, ¬ Ends s → database.after s d l = d :=
    fun s d l hs => exec_db fun hc => hs (.inl hc)
  have hone := fun i =>
    oneShot_processBankCallback (cs i).event (cs i).pspReference (cs i).amount (cs i).ids
  have hcareful := fun i =>
    follows_processBankCallback (cs i).event (cs i).pspReference (cs i).amount (cs i).ids
  have hgo : ∀ i, ¬ ((cs i).prog).Done := fun i => id
  obtain ⟨order, killed, -, -, h⟩ := linearizable hquiet stable hone hcareful hgo
    (linearized_start hgo) (isolation.pool_start d fun i => (cs i).prog) hr
  have hpool : isolation.Pool c := hr.invariant isolation.Pool (isolation.pool_start d _)
    fun _ _ _ hI _ hs => isolation.pool_step hI hs
  obtain ⟨order', killed', ⟨later, rfl⟩, hsub, h'⟩ :=
    linearizable hquiet stable hone hcareful hgo h hpool hr'
  exact ⟨order, later, killed, killed', hsub, servedIn_of_linearized h, servedIn_of_linearized h'⟩

/-! ### A callback that dies with its locks -/

namespace Sample

open PaymentGateway.Results.Serializability.Sample

/-- The first has opened the merchant's account, and dies before its commit. -/
def dead : Config sql Db Session Two CallbackResult :=
  database.kill (database.fireAll (List.replicate 8 .first) (callbackPool callbacks waiting)) .first

/-- The second opens it instead. -/
def ended : Config sql Db Session Two CallbackResult :=
  database.fireAll (List.replicate 13 .second) dead

theorem run_dead : database.Run (fun _ _ => True) (callbackPool callbacks waiting) dead := by
  have hfired : database.Run (fun _ _ => True) (callbackPool callbacks waiting)
      (database.fireAll (List.replicate 8 .first) (callbackPool callbacks waiting)) :=
    Machine.run_fireAll (by decide +kernel)
  exact hfired.tail ⟨.kill .first, trivial, .kill (by decide +kernel)⟩

theorem run_ended : database.Run (fun _ _ => True) dead ended :=
  Machine.run_fireAll (by decide +kernel)

end Sample

theorem callbacks_linearizable_dead : (Sample.ended.procs .second).prog.Done ∧
    ∃ order later killed killed', killed ⊆ killed' ∧
      ServedIn Serializability.Sample.callbacks Serializability.Sample.waiting Sample.dead order
        killed ∧
      ServedIn Serializability.Sample.callbacks Serializability.Sample.waiting Sample.ended
        (order ++ later) killed' :=
  ⟨by decide +kernel, callbacks_linearizable Sample.run_dead Sample.run_ended⟩

end PaymentGateway.Results.Crashes
