import NavDirections.Graph.Document
import NavDirections.Loading.Url
import NavDirections.Settings.File

/-!
# Loading graphs

A graph document comes from a file, from a URL or from standard input.  What goes wrong on the way
is reported with the source's name; a request for a URL is answered, or fails, only once.
-/

namespace NavDirections

inductive RequestFailure where
  | timeout
  | connection
  | other (reason : Text)
  /-- A failure without the details that a report needs. -/
  | incomplete (k : KindFault)

inductive RequestOutcome where
  | failed (f : RequestFailure)
  | answered (status : Int) (body : Text)

inductive LoadError where
  | fileNotFound (path : FilePath)
  | invalidFile (path : FilePath) (e : JsonSyntaxError)
  | unreadableFile (path : FilePath) (f : SystemFault)
  | invalidUrl (url : Text)
  | timeout (url : Text)
  | noConnection (url : Text)
  | badStatus (status : Int) (url : Text)
  | invalidResponse (url : Text) (e : JsonSyntaxError)
  | badRequest (url reason : Text)
  | noSource
  | twoSources
  | invalidGraph (source : Text) (e : ModelError)

def LoadError.message : LoadError → Text
  | fileNotFound path => "File not found: " ++ path.text
  | invalidFile path e => "Invalid JSON in file " ++ path.text ++ ": " ++ e.message
  | unreadableFile path f => "Error reading file " ++ path.text ++ ": " ++ f.message
  | invalidUrl url => "Invalid URL: " ++ url
  | timeout url => "Request timeout for URL: " ++ url
  | noConnection url => "Connection error for URL: " ++ url
  | badStatus status url => "HTTP error " ++ Text.ofInt status ++ " for URL: " ++ url
  | invalidResponse url e => "Invalid JSON response from URL " ++ url ++ ": " ++ e.message
  | badRequest url reason => "Request error for URL " ++ url ++ ": " ++ reason
  | noSource => "Either file_path or url must be provided"
  | twoSources => "Cannot specify both file_path and url"
  | invalidGraph source e => "Invalid navigation graph in " ++ source ++ ": " ++ e.message

inductive LoadFault where
  | reported (e : LoadError)
  | system (f : SystemFault)
  | notUtf8 (f : MalformedBytes)
  | hugeInteger (digits : Nat)
  | tooDeep
  | malformedUrl (f : UrlFault)
  | kind (k : KindFault)

def loadFile (depth : Nat) (t : FileTree) (path : FilePath) : Except LoadFault Json :=
  match t.hasEntry path with
  | .error f => .error (.system f)
  | .ok false => .error (.reported (.fileNotFound path))
  | .ok true => (t.readJson depth path).mapError fun
    | .system f => .reported (.unreadableFile path f)
    | .notUtf8 f => .notUtf8 f
    | .document (.syntaxError e) => .reported (.invalidFile path e)
    | .document (.hugeInteger digits) => .hugeInteger digits
    | .document .tooDeep => .tooDeep

def checkUrl (url : Text) : Except LoadFault Unit := do
  let parts ← (Url.parts url).mapError .malformedUrl
  if parts.scheme.isEmpty || parts.authority.isEmpty then .error (.reported (.invalidUrl url))

def jsonOfOutcome (depth : Nat) (url : Text) : RequestOutcome → Except LoadFault Json
  | .failed .timeout => .error (.reported (.timeout url))
  | .failed .connection => .error (.reported (.noConnection url))
  | .failed (.other reason) => .error (.reported (.badRequest url reason))
  | .failed (.incomplete k) => .error (.kind k)
  | .answered status body =>
    if 400 ≤ status ∧ status < 600 then .error (.reported (.badStatus status url))
    else (Json.parse depth body).mapError fun
      | .syntaxError e => .reported (.invalidResponse url e)
      | .hugeInteger digits => .hugeInteger digits
      | .tooDeep => .tooDeep

def loadUrl (depth : Nat) (outcome : RequestOutcome) (url : Text) : Except LoadFault Json := do
  checkUrl url
  jsonOfOutcome depth url outcome

def graphOfSource (document : Json) (source : Text) (applicationId : Json) :
    Except LoadFault NavigationGraph :=
  (NavigationGraph.ofDocument document applicationId).mapError fun
    | .model e =>
      match e.written with
      | .ok _ => .reported (.invalidGraph source e)
      | .error k => .kind k
    | .kind k => .kind k

/-- The JSON value of a file or a URL, with the name of its source.  Exactly one of both has to be
named; an empty text names nothing. -/
def loadDocument (depth : Nat) (t : FileTree) (outcome : RequestOutcome) (file url : Text) :
    Except LoadFault (Text × Json) :=
  match file.isEmpty, url.isEmpty with
  | true, true => .error (.reported .noSource)
  | false, false => .error (.reported .twoSources)
  | false, true =>
    let path := FilePath.ofText file
    (loadFile depth t path).map (path.text, ·)
  | true, false => (loadUrl depth outcome url).map (url, ·)

def loadGraph (depth : Nat) (t : FileTree) (outcome : RequestOutcome)
    (file url : Text) (applicationId : Json) : Except LoadFault (Text × NavigationGraph) := do
  let (source, document) ← loadDocument depth t outcome file url
  let graph ← graphOfSource document source applicationId
  .ok (source, graph)

end NavDirections
