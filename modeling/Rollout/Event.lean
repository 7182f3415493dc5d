/-! What a run reports while it works, and the stage it runs on. -/

namespace Rollout

inductive Level
  | debug
  | info
  | warn
  | error
  deriving DecidableEq

def Level.text : Level → String
  | .debug => "DEBUG"
  | .info => "INFO"
  | .warn => "WARN"
  | .error => "ERROR"

structure Event where
  level : Level
  message : String
  fields : List (String × String)
  deriving DecidableEq

/-- Where a run takes place: events can be noted, and workers can be sent off to go side by side until
all of them are back. A worker that stops unexpectedly gives nothing back. -/
class Stage (m : Type → Type) extends Monad m where
  note : Event → m Unit
  gather : {α : Type} → List (m α) → m (List (Option α))

namespace Stage

variable {m : Type → Type} [Stage m]

def info (message : String) : m Unit := note ⟨.info, message, []⟩

def warn (message : String) : m Unit := note ⟨.warn, message, []⟩

def debugWith (message : String) (fields : List (String × String)) : m Unit :=
  note ⟨.debug, message, fields⟩

def infoWith (message : String) (fields : List (String × String)) : m Unit :=
  note ⟨.info, message, fields⟩

def warnWith (message : String) (fields : List (String × String)) : m Unit :=
  note ⟨.warn, message, fields⟩

def errorWith (message : String) (fields : List (String × String)) : m Unit :=
  note ⟨.error, message, fields⟩

end Stage

end Rollout
