/-!
# Messages and cancellation

A long run tells its host what it is about to do and looks, now and then, at
a flag by which the host asks it to stop. When the flag is up is the host's
affair: a `Schedule` says so for every moment of a run, a moment being how
often the flag was read and how many messages were delivered before.

A `Context` is what a run is given of its host: the flag and the log. A
detached one never stops a run and keeps no log.
-/

namespace Wireframe

/-- When the cancel flag is up. -/
structure Schedule where
  /-- Whether the flag is up after so many reads and so many messages. -/
  raised : Nat → Nat → Bool

namespace Schedule

/-- The flag stays down. -/
def never : Schedule := ⟨fun _ _ => false⟩

/-- The flag is up from the start. -/
def always : Schedule := ⟨fun _ _ => true⟩

/-- The flag goes up as soon as `k` messages are delivered. -/
def afterMessages (k : Nat) : Schedule := ⟨fun _ delivered => k ≤ delivered⟩

end Schedule

/-- What has passed between a run and its host. -/
@[ext]
structure Progress where
  /-- How often the flag was read. -/
  reads : Nat
  /-- The messages delivered, in order. -/
  messages : List String
  deriving DecidableEq, Repr

namespace Progress

/-- Nothing has passed yet. -/
def start : Progress := ⟨0, []⟩

/-- Whether the flag is up now. -/
def cancelled (p : Progress) (s : Schedule) : Bool := s.raised p.reads p.messages.length

/-- The flag was read once more. -/
def read (p : Progress) : Progress := { p with reads := p.reads + 1 }

/-- One more message was delivered. -/
def tell (p : Progress) (text : String) : Progress := { p with messages := p.messages ++ [text] }

end Progress

/-! ## Contexts -/

/-- A host's flag and log, or the want of a host. -/
structure Context where
  /-- Whether there is a host. -/
  attached : Bool
  flag : Bool
  log : List String
  deriving DecidableEq, Repr

namespace Context

/-- A context over a host with its flag down and an empty log. -/
def host : Context := ⟨true, false, []⟩

/-- A context without a host. -/
def detached : Context := ⟨false, false, []⟩

/-- The flag that a run sees. -/
def cancelled (c : Context) : Bool := c.attached && c.flag

/-- Sends a message to the host, if there is one. -/
def message (c : Context) (text : String) : Context :=
  if c.attached then { c with log := c.log ++ [text] } else c

/-- The host puts the flag up. -/
def raise (c : Context) : Context := { c with flag := true }

/-- The host takes the flag down. -/
def lower (c : Context) : Context := { c with flag := false }

/-- How a context is shown to a developer. -/
def debugText (c : Context) : String :=
  "ExecutionContext \x7b cancelled: " ++ (if c.cancelled then "true" else "false") ++ ", .. \x7d"

end Context

end Wireframe
