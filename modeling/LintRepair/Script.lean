import LintRepair.FileTree
import LintRepair.History

/-!
Scripts.

A script is a piece of work that asks its surroundings for one thing at a time: the bytes of a
file, a write, a note in the change history. What it does next depends on the answers alone, so a
script can be run against any store of files, in one go or step by step among other scripts.

* `Script`: the requests, each with how the work goes on.
* `World`: the surroundings: a store of files, a change history, the notifications sent so far.
* `Script.step`, `Script.run`: the answer to one request, and to all of them.
-/

namespace LintRepair

/-- A piece of work that ends in a value of type `α`. -/
inductive Script (α : Type) where
  | done (value : α)
  /-- Asks what a path names. -/
  | kind (path : Path) (next : Option FileKind → Script α)
  /-- Asks for the bytes of a file. -/
  | read (path : Path) (next : Except IoError ByteArray → Script α)
  /-- Gives a file new bytes. -/
  | write (path : Path) (bytes : ByteArray) (next : Except IoError Unit → Script α)
  /-- Notes the digest of a content written to a path, and asks whether it is new there. -/
  | record (path : Path) (digest : UInt64) (next : Bool → Script α)
  /-- Asks for the bytes of the standard input. -/
  | input (next : ByteArray → Script α)

namespace Script

/-- Goes on with another script once this one is done. -/
def bind {α β : Type} : Script α → (α → Script β) → Script β
  | done value, next => next value
  | kind path more, next => kind path fun answer => (more answer).bind next
  | read path more, next => read path fun answer => (more answer).bind next
  | write path bytes more, next => write path bytes fun answer => (more answer).bind next
  | record path digest more, next => record path digest fun answer => (more answer).bind next
  | input more, next => input fun answer => (more answer).bind next

instance : Monad Script where
  pure := done
  bind := bind

end Script

/-- The surroundings of a script. -/
structure World (σ : Type) where
  store : σ
  history : History
  /-- The paths whose changes were notified, in order. -/
  notified : List Path
  /-- The bytes of the standard input. -/
  stdin : ByteArray

namespace World

/-- Notes a digest. A change is notified. -/
def record {σ : Type} (world : World σ) (path : Path) (digest : UInt64) : Bool × World σ :=
  let (changed, history) := world.history.record path digest
  (changed,
    { world with
      history
      notified := if changed then world.notified ++ [path] else world.notified })

end World

namespace Script

variable {σ : Type} [FileStore σ] {α : Type}

/-- Answers one request of a script. -/
def step (world : World σ) : Script α → Script α × World σ
  | done value => (done value, world)
  | kind path next => (next (FileStore.kind world.store path), world)
  | read path next => (next (FileStore.read world.store path), world)
  | write path bytes next =>
      match FileStore.write world.store path bytes with
      | .error e => (next (.error e), world)
      | .ok store => (next (.ok ()), { world with store })
  | record path digest next =>
      let (changed, world') := world.record path digest
      (next changed, world')
  | input next => (next world.stdin, world)

/-- Answers all requests of a script, one after the other. -/
def run (world : World σ) : Script α → α × World σ
  | done value => (value, world)
  | kind path next => (next (FileStore.kind world.store path)).run world
  | read path next => (next (FileStore.read world.store path)).run world
  | write path bytes next =>
      match FileStore.write world.store path bytes with
      | .error e => (next (.error e)).run world
      | .ok store => (next (.ok ())).run { world with store }
  | record path digest next =>
      (next (world.record path digest).1).run (world.record path digest).2
  | input next => (next world.stdin).run world

end Script

end LintRepair
