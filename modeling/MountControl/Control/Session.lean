import MountControl.Control.Dispatch

namespace MountControl

inductive Action
  | execute (command : String)
  | run (operation : Operation)
  | invoke (code : RequestCode) (input : Option Bytes)

structure Step where
  mount : Path
  driver : Driver
  action : Action

inductive StepResult
  | outcome (o : Outcome)
  | reply (r : Reply)
  deriving DecidableEq

namespace Exchange

def map {α β : Type} (f : α → β) (x : Exchange α) : Exchange β :=
  ⟨x.result.map f, x.events, x.notes⟩

end Exchange

namespace Transport

def perform (t : Transport) (s : Step) : Exchange StepResult :=
  match s.action with
  | .execute command => (t.execute s.driver command s.mount).map .outcome
  | .run operation => (t.run s.driver operation s.mount).map .outcome
  | .invoke code input => (t.invoke s.driver s.mount code input).map .reply

/-- Carries out the steps of a session in order; no step changes how the next is carried out. -/
def session (t : Transport) (steps : List Step) : List (Exchange StepResult) :=
  steps.map t.perform

end Transport

end MountControl
