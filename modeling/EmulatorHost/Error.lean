import EmulatorHost.Config.Basic
import EmulatorHost.Picture.FrameBuffer
import EmulatorHost.Replay.Wire

/-!
# Errors of the host

* `LoadError`: the core refused an image.
* `HostError`: any error of the host, worded as the error it holds.
-/

namespace EmulatorHost

/-- The core refused an image of this many bytes; why is up to the core. -/
structure LoadError where
  size : Nat
  deriving DecidableEq, Repr

/-- The wording of a refused image. -/
def LoadError.message (e : LoadError) : String :=
  "core rejected ROM image (" ++ toString e.size ++ " bytes)"

/-- Any error of the host. -/
inductive HostError where
  | load (cause : LoadError)
  | frameBuffer (cause : FrameBufferError)
  | config (cause : ConfigError)
  | replay (cause : ReplayError)
  deriving DecidableEq

/-- The wording of an error of the host. -/
def HostError.message : HostError → String
  | load cause => cause.message
  | frameBuffer cause => cause.message
  | config cause => cause.message
  | replay cause => cause.message

end EmulatorHost
