import TruthTree.Diagram.Basic
import TruthTree.Notice

/-! The gallery: where pictures of tableaux are saved, and what they are drawn with, if anything. -/
namespace TruthTree

/-- A package that draws graphs. Its messages say why it does not. -/
structure Graphics where
  /-- The format of a new graph as the package spells it. -/
  format : Text → Except String Text
  /-- The path of the picture of a graph that is saved under a name. -/
  render : Graph → Text → Except String Text

/-- The state of the folder for pictures. A blocked one cannot be made. -/
inductive Folder where
  | absent
  | present
  | blocked
  deriving DecidableEq

structure Gallery where
  graphics : Option Graphics
  folder : Folder

/-- Why there is no graph: the package does not know the format, or there is no text for it. -/
inductive FormatError where
  | unknown (message : String)
  | unnamed
  deriving DecidableEq

def FormatError.message : FormatError → String
  | unknown message => message
  | unnamed => "'list' object has no attribute 'lower'"

namespace Gallery

/-- The graph of a tableau; none if there is nothing to draw with, whatever the format. -/
def draw (g : Gallery) (t : Tableau) (format : Option Text) : Except FormatError (Option Graph) :=
  match g.graphics, format with
  | none, _ => .ok none
  | some _, none => .error .unnamed
  | some graphics, some requested =>
    match graphics.format requested with
    | .error message => .error (.unknown message)
    | .ok spelled => .ok (some ⟨"Truth tree", spelled, Diagram.items t⟩)

def folderName : String := "tree_visualizations"

def inFolder (g : Gallery) : Bool := g.folder ≠ .blocked

/-- The path of a picture without the ending for its format. A name that starts at the root of the
file system stands for itself. -/
def basePath (g : Gallery) (name : Text) : Text :=
  if g.inFolder && name.head? ≠ some '/' then folderName.toList ++ '/' :: name else name

def opened (g : Gallery) : Gallery :=
  { g with folder := if g.folder = .absent then .present else g.folder }

def missingNotice : Notice :=
  .warning ("Graphviz library not installed. Skipping truth tree visualization. " ++
    "To enable, install graphviz: pip install graphviz")

def drawNotices (g : Gallery) : List Notice :=
  match g.graphics with
  | none => [missingNotice]
  | some _ => []

def folderNotices (g : Gallery) : List Notice :=
  match g.folder with
  | .present => []
  | .absent => [.info s!"Created directory for tree visualizations: {folderName}"]
  | .blocked =>
    let reason := s!"[Errno 17] File exists: '{folderName}'"
    [.error s!"Could not create directory {folderName}: {reason}. Saving to current directory instead."]

def failureNotice (base requested : Text) (reason : String) : Notice :=
  .warning (s!"Failed to render truth tree visualization to {base.toStr}.{requested.toStr}: {reason}. " ++
    "Ensure Graphviz executables (dot) are in your system's PATH.")

structure Saved where
  path : Option Text
  gallery : Gallery
  notices : List Notice

def save (g : Gallery) (t : Tableau) (name : Text) (format : Option Text) :
    Except FormatError Saved :=
  match g.graphics, g.draw t format with
  | _, .error e => .error e
  | some graphics, .ok (some graph) =>
    let base := g.basePath name
    match graphics.render graph base with
    | .ok path =>
      let saved : Notice := .info s!"Truth tree visualization saved to {path.toStr}"
      .ok ⟨some path, g.opened, g.folderNotices ++ [saved]⟩
    | .error reason =>
      .ok ⟨none, g.opened, g.folderNotices ++ [failureNotice base (format.getD []) reason]⟩
  | _, .ok _ => .ok ⟨none, g, g.drawNotices⟩

end Gallery

end TruthTree
