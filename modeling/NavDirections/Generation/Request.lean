import NavDirections.Generation.Basic
import NavDirections.Json.Reader

/-!
# Requests

A generation in one step: entries make the settings, an application may be named over them, and the
graph comes as a document or as the text of one.
-/

namespace NavDirections

/-- Entries for the settings, an application, which is empty where none is named, and a graph
document. -/
structure GenerationRequest where
  entries : List (Text × Json)
  applicationId : Text
  document : Json

/-- The names that a request uses itself, so that no entry of a one-step request may bear them. -/
def GenerationRequest.ownNames : List Text := ["graph_data", "application_id"]

inductive RequestFault where
  | entries (f : Settings.EntryFault)
  | document (f : Json.DocumentFault)
  | breakdown (b : Breakdown)
  | failure (f : GenerationFailure)

namespace GenerationRequest

def settings (r : GenerationRequest) : Except RequestFault Settings :=
  ((Settings.ofLayers [r.entries]).map (·.forApplication r.applicationId)).mapError .entries

def run (r : GenerationRequest) : Except RequestFault (Except GenerationFailure Generation) := do
  let s ← r.settings
  (s.generateDocument r.document).mapError .breakdown

def read (r : GenerationRequest) (depth : Nat) : Except RequestFault GenerationRequest :=
  match r.document with
  | .text t => ((Json.parse depth t).map fun document => { r with document }).mapError .document
  | _ => .ok r

/-- The sources that a request asks for; its document may be a text. -/
def sources (r : GenerationRequest) (depth : Nat) : Except RequestFault Sources := do
  if r.entries.any fun (key, _) => ownNames.contains key then .error (.breakdown (.kind .operand))
  let r ← r.read depth
  match ← r.run with
  | .ok g => .ok g.sources
  | .error f => .error (.failure f)

end GenerationRequest
end NavDirections
