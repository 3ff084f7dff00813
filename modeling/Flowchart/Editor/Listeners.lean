import Flowchart.Editor.Event
/-! Who listens to which events. Listeners are numbered as they come and called in that order. -/
namespace Flowchart

structure Listeners where
  /-- Number of the next listener. The count has no limit; a word of 64 bits holds the first 2^64
  numbers. -/
  next : Nat := 0
  active : List (Nat × EventKind) := []
  /-- Kinds that somebody has ever listened to. -/
  known : List EventKind := []
  deriving DecidableEq, Repr

namespace Listeners

/-- Add a listener; its number is `next` as it was. -/
def on (ls : Listeners) (kind : EventKind) : Listeners :=
  ⟨ls.next + 1, ls.active ++ [(ls.next, kind)], if ls.known.contains kind then ls.known
    else ls.known ++ [kind]⟩

def off? (ls : Listeners) (listener : Nat) : Option Listeners :=
  if ls.active.any (·.1 == listener) then
    some { ls with active := ls.active.filter (·.1 != listener) }
  else none

def of (ls : Listeners) (kind : EventKind) : List Nat :=
  (ls.active.filter (·.2 == kind)).map (·.1)

def deliver {α : Type} (ls : Listeners) (events : List (Event α)) : List (Nat × Event α) :=
  events.flatMap fun event => (ls.of event.kind).map (·, event)

def counts (ls : Listeners) : List (EventKind × Nat) :=
  (EventKind.all.filter ls.known.contains).map fun kind => (kind, (ls.of kind).length)

end Listeners
end Flowchart
