import GoQueue.System.State

/-! # The deployment of `cmd/goqueue/main.go`

The handlers and queues that `main` sets up, with the default job timeout of thirty seconds.
The overflow value is the one of 64-bit x86.
-/

namespace GoQueue.Cmd

def handlers : List String := ["process", "send_email", "push_notify", "generate_report"]

def mainConfig : Config where
  uuid := canonicalCodec
  registered := handlers.contains
  queues := ["default", "email", "notification", "report"]
  short := by decide
  jobTimeout := 30 * second
  overflow := -2 ^ 63

/-- A request for a job of a type that `main` registers, in a queue that it serves. -/
def request : Api.CreateJobRequest where
  queue := "default"
  type := "process"
  payload := none
  maxRetries := none
  runAt := none

/-- The system of `main` on empty stores, at the epoch. -/
def initialState : State := ⟨.empty 0, []⟩

theorem initial_initialState : (system mainConfig).initial initialState := ⟨0, rfl⟩

/-- The state after a run of unrestricted actions. -/
def runFrom (s : State) (actions : List Action) : Option State :=
  (system mainConfig).exec anyAction s actions

end GoQueue.Cmd
