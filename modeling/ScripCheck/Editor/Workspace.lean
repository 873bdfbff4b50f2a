import ScripCheck.Check
import ScripCheck.Editor.Range
import ScripCheck.Editor.Uri
import ScripCheck.Files.Snapshot

/-!
# Open documents

An editor opens, changes and closes documents. Each time a document is opened or changed, its
diagnostics are published. A document that is not open is read from its file.

* `Workspace`: the open documents and their texts.
* `Workspace.step`: what an event does to them, and the reply.
* `notices`: what is published about a text.
-/

namespace ScripCheck.Editor

open Files

/-- The diagnostics of a text. -/
def diagnose (src : List Char) : List Diagnostic :=
  match lex src with
  | .error es => es.map (·.diagnostic)
  | .ok tokens =>
    match parse src tokens with
    | .error _ => []
    | .ok p => p.errors.map (·.diagnostic)

/-- What is published about a text. -/
def notices (e : Encoding) (src : List Char) : List Notice :=
  (diagnose src).map (Notice.ofDiagnostic e src)

/-- What an editor tells. -/
inductive Event where
  | opened (uri : String) (text : List Char)
  /-- The texts that the document has one after the other. -/
  | changed (uri : String) (texts : List (List Char))
  | closed (uri : String)
  /-- The diagnostics are asked for. -/
  | asked (uri : String)

/-- Why a document has no text. -/
inductive DocumentError where
  | uri (e : UriError)
  | file (path : Path) (e : ReadError)
  /-- The document that is to be changed is not open. -/
  | notOpen (key : String)

/-- What an event is answered with. -/
inductive Reply where
  | silence
  | published (uri : String) (notices : List Notice)
  | failed (e : DocumentError)

/-- The open documents: the texts under their keys. -/
abbrev Workspace := List (String × List Char)

namespace Workspace

/-- The key of a document. -/
def key (uri : String) : String := .ofList (percentDecode uri.toList)

/-- The workspace without the document of a key. -/
def close (w : Workspace) (k : String) : Workspace := w.filter (·.1 ≠ k)

/-- The workspace with the text of a document. -/
def put (w : Workspace) (k : String) (text : List Char) : Workspace := (k, text) :: w.close k

/-- The text of a file that a URI names. -/
def fileText (files : Snapshot) (uri : String) : Except DocumentError (List Char) := do
  let u ← (Uri.ofString uri).mapError .uri
  let src ← (files.readText u.file).mapError (.file u.file)
  return unifyBreaks src

/-- The text of a document, from its file if it is not open. -/
def text (w : Workspace) (files : Snapshot) (uri : String) : Except DocumentError (List Char) :=
  match w.lookup (key uri) with
  | some src => .ok src
  | none => fileText files uri

/-- The diagnostics of a document. -/
def reply (w : Workspace) (files : Snapshot) (e : Encoding) (uri : String) : Reply :=
  match w.text files uri with
  | .ok src => .published uri (notices e src)
  | .error err => .failed err

/-- What an event does to the open documents, and the reply. A document is opened only if its URI
has parts. -/
def step (w : Workspace) (files : Snapshot) (e : Encoding) : Event → Workspace × Reply
  | .opened uri text =>
    match Uri.ofString uri with
    | .error err => (w, .failed (.uri err))
    | .ok _ =>
      let w := w.put (key uri) text
      (w, w.reply files e uri)
  | .changed uri texts =>
    match texts.getLast? with
    | none => (w, w.reply files e uri)
    | some text =>
      if (w.lookup (key uri)).isNone then (w, .failed (.notOpen (key uri)))
      else
        let w := w.put (key uri) text
        (w, w.reply files e uri)
  | .closed uri => (w.close (key uri), .silence)
  | .asked uri => (w, w.reply files e uri)

/-- The replies to some events. -/
def replies (w : Workspace) (files : Snapshot) (e : Encoding) : List Event → List Reply
  | [] => []
  | event :: events =>
    let (w, r) := w.step files e event
    r :: w.replies files e events

end Workspace

end ScripCheck.Editor
