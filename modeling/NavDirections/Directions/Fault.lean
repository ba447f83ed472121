import NavDirections.Declaration.Class
import NavDirections.Graph.Fault

/-!
# Faults of a generation

A graph that is well formed may still have no directions: its model may be faulty, or two of its
destinations may get the same class.  These two are reported; the others end the whole run.
-/

namespace NavDirections

/-- A class name and the labels of all destinations that get it. -/
structure Collision where
  name : Text
  labels : List Json

def Collision.describe (c : Collision) : Text :=
  c.name ++ " <- " ++ Text.joinWith ", " (c.labels.map Json.plain)

def collisionMessage (collisions : List Collision) : Text :=
  "Generated class name collision: " ++ Text.joinWith "; " (collisions.map Collision.describe)

/-- A fault that is reported as the outcome of a generation. -/
inductive GenerationError where
  | model (e : ModelError)
  | collision (collisions : List Collision)

def GenerationError.message : GenerationError → Text
  | model e => e.message
  | collision collisions => collisionMessage collisions

def GenerationError.written : GenerationError → Except KindFault Text
  | model e => e.written
  | collision collisions => .ok (collisionMessage collisions)

/-- A fault that ends the run: a value of the wrong kind, an integer with too many digits, or a
statement whose format and arguments do not go together. -/
inductive Breakdown where
  | kind (k : KindFault)
  | hugeInteger (digits : Nat)
  | statement (f : StatementFault)
  | argumentsRanOut

inductive DirectionsFault where
  | reported (e : GenerationError)
  | breakdown (b : Breakdown)

namespace DirectionsFault

def model (e : ModelError) : DirectionsFault := .reported (.model e)

def kind (k : KindFault) : DirectionsFault := .breakdown (.kind k)

/-- The same fault seen from an enclosing place. -/
def within (outer : Location) : DirectionsFault → DirectionsFault
  | .reported (.model e) => .reported (.model (e.within outer))
  | f => f

end DirectionsFault
end NavDirections
