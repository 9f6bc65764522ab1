import UslossKernel.Clients

namespace UslossKernel

/-- The processes of a service, and the calls that have been made of it with
their arguments. -/
structure Calling (σ τ α : Type) where
  client : Client σ τ
  calls : List (Pid × α)

/-- The call that begins with this action. -/
def ClientAct.begins {α ε : Type} : ClientAct α ε → List (Pid × α)
  | .invoke p arg => [(p, arg)]
  | _ => []

namespace Calling

variable {σ τ α ε : Type} (R : Routines σ τ α ε)

def start (client : Client σ τ) : Calling σ τ α :=
  ⟨client, []⟩

def step (s : Calling σ τ α) (a : ClientAct α ε) : Option (Calling σ τ α) :=
  (s.client.step R a).map fun client => ⟨client, s.calls ++ a.begins⟩

variable {R} {s s' : Calling σ τ α} {a : ClientAct α ε} {c : Client σ τ}
  {guard : Client σ τ → ClientAct α ε → Prop}

theorem step_eq_some : s.step R a = some s' ↔
    s.client.step R a = some s'.client ∧ s'.calls = s.calls ++ a.begins := by
  obtain ⟨client', calls'⟩ := s'
  simp only [step, Option.map_eq_some_iff, mk.injEq]
  constructor
  · rintro ⟨client, moves, rfl, rfl⟩
    exact ⟨moves, rfl⟩
  · rintro ⟨moves, rfl⟩
    exact ⟨client', moves, rfl, rfl⟩

/-- Without its calls a run is one of the service. -/
theorem client_run (run : Transition.Run (step R) (fun s => guard s.client) s s') :
    Transition.Run (Client.step R) guard s.client s'.client := by
  induction run with
  | refl => exact .refl
  | tail _ last ih =>
    obtain ⟨a, admitted, moves⟩ := last
    exact ih.next admitted (step_eq_some.mp moves).1

/-- And every run of the service is one with calls. -/
theorem exists_run (run : Transition.Run (Client.step R) guard s.client c) :
    ∃ s', Transition.Run (step R) (fun s => guard s.client) s s' ∧ s'.client = c := by
  refine run.simulated (fun c (s : Calling σ τ α) => s.client = c) rfl ?_
  rintro _ a after before rfl admitted moves
  exact ⟨⟨after, before.calls ++ a.begins⟩, .single ⟨a, admitted, step_eq_some.mpr ⟨moves, rfl⟩⟩, rfl⟩

end Calling

end UslossKernel
