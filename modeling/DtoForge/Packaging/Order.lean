import DtoForge.Object
import DtoForge.Log

/-! # Order — dependencies first

Objects are visited depth first in the given order, and an object is listed when all its
dependencies have been visited. A dependency on an object that is still being visited closes a
cycle: it is noted and not followed. Dependencies on objects that are not there are passed over. -/

namespace DtoForge.Packaging

/-- A dependency that was not followed because it closes a cycle, by the names of its ends. -/
structure CycleEdge where
  dependent : String
  dependency : String
  deriving DecidableEq, Repr

/-- The record of a cycle. -/
def CycleEdge.record (e : CycleEdge) : LogRecord :=
  ⟨.warning, Logger.packaging,
    "Dependency cycle: " ++ e.dependent ++ " -> " ++ e.dependency ++ "; ignoring this edge"⟩

/-- The state of the visit. -/
structure Traversal where
  /-- Objects whose visit has ended. -/
  visited : List String := []
  /-- Objects whose visit has begun and not ended. -/
  visiting : List String := []
  /-- The objects listed so far. -/
  ordered : List ObjectDefinition := []
  /-- The cycles noted so far. -/
  cycles : List CycleEdge := []

namespace Traversal

/-- The object of an identifier; of several, the last. -/
def lookup? (objects : List ObjectDefinition) (id : String) : Option ObjectDefinition :=
  objects.reverse.find? fun d => d.id == id

/-- Begins the visit of an object. -/
def enter (t : Traversal) (d : ObjectDefinition) : Traversal :=
  { t with visiting := d.id :: t.visiting }

/-- Ends the visit of an object and lists it. -/
def leave (t : Traversal) (d : ObjectDefinition) : Traversal :=
  { t with
    visiting := t.visiting.filter (· != d.id)
    visited := d.id :: t.visited
    ordered := t.ordered ++ [d] }

/-- Follows one dependency of an object, visiting it by `visit`. -/
def follow (objects : List ObjectDefinition)
    (visit : Traversal → ObjectDefinition → Traversal) (d : ObjectDefinition) (t : Traversal)
    (id : String) : Traversal :=
  match lookup? objects id with
  | none => t
  | some dependency =>
    if t.visiting.contains id then
      { t with cycles := t.cycles ++ [⟨d.name, dependency.name⟩] }
    else visit t dependency

/-- Visits an object and what it depends on. Objects under visit are all different, so no visit
goes deeper than there are objects. -/
def visit (objects : List ObjectDefinition) : Nat → Traversal → ObjectDefinition → Traversal
  | 0, t, _ => t
  | depth + 1, t, d =>
    if t.visited.contains d.id then t
    else ((d.dependencies.foldl (follow objects (visit objects depth) d) (t.enter d))).leave d

end Traversal

/-- The visit of all objects in the given order. -/
def traverse (objects : List ObjectDefinition) : Traversal :=
  objects.foldl (Traversal.visit objects (objects.length + 1)) {}

/-- The objects with every dependency before its dependents. -/
def orderByDependency (objects : List ObjectDefinition) : List ObjectDefinition :=
  (traverse objects).ordered

/-- The records of the cycles among objects. -/
def cycleRecords (objects : List ObjectDefinition) : List LogRecord :=
  (traverse objects).cycles.map CycleEdge.record

end DtoForge.Packaging
