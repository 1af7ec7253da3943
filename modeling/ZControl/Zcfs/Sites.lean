import ZControl.Attributes
import ZControl.ReadWrite
import ZControl.Zcfs.Operations

/-!
# Operations on the workers' side

The mount looks a worker up, and its `Commander` has a command carried out by the worker there; or
the transport fails, or the worker's side of it. Seen so, an operation on a path below a client is
a program of that client's worker on the rest of the path: its system calls in their order, on that
worker and no other, and what they come to is returned.
-/

namespace ZControl

open Interaction

namespace Zcfs

/-! ## The operations of the whole -/

/-- What the mount and the workers at its connections do together. -/
inductive SiteOp where
  | getCommander (client : Bytes)
  | getClients
  | filler (name : Bytes) (st : FillStat)
  | nextCommandId (conn : ConnId)
  | transport (conn : ConnId)        -- what `_send_command` throws, if the worker's answer is not
                                     -- what it returns
  | worker (conn : ConnId) (op : WorkerOp)
  deriving DecidableEq

@[reducible] def SiteOp.Ans : SiteOp → Type
  | .getCommander _  => Option ConnId
  | .getClients      => List Bytes
  | .filler _ _      => Bool
  | .nextCommandId _ => UInt32
  | .transport _     => Option Fault
  | .worker _ op     => op.Ans

abbrev SiteProg (α : Type) := Prog SiteOp SiteOp.Ans Fault α

abbrev SiteEvent := Event SiteOp SiteOp.Ans

/-- A program of the worker at `conn`. -/
def atWorker {α : Type} (conn : ConnId) (p : WorkerProg α) : SiteProg α :=
  p.translate fun op => Prog.call (SiteOp.worker conn op)

/-- Carry the operations of the mount out; `dirsToOverride` is configured for each worker. -/
def deliver (dirsToOverride : ConnId → DirsToOverride) : (op : ZcfsOp) → SiteProg op.Ans
  | .getCommander client => Prog.call (SiteOp.getCommander client)
  | .getClients          => Prog.call SiteOp.getClients
  | .filler name st      => Prog.call (SiteOp.filler name st)
  | .commander conn .nextCommandId => Prog.call (SiteOp.nextCommandId conn)
  | .commander conn (.sendCommand commanderMsg) => do
      let failure ← Prog.call (SiteOp.transport conn)
      match failure with
      | some e => pure (.error e)
      | none => do
          let workerMsg ← atWorker conn (Worker.doCommand (dirsToOverride conn) commanderMsg)
          pure (Commander.responseOf workerMsg)

def Delivered {α : Type} (dirsToOverride : ConnId → DirsToOverride) (p : ZcfsProg α) : SiteProg α :=
  p.translate (deliver dirsToOverride)

/-! ## One command -/

section

variable {α β : Type} {dirsToOverride : ConnId → DirsToOverride} {conn : ConnId}

end

/-! ## A call where the client is -/

section

variable {β γ : Type} (dirsToOverride : ConnId → DirsToOverride)

variable {dirsToOverride}

end

end Zcfs

end ZControl
