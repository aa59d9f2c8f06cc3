import IMonPlatform.Lib.Transition

/-!
# `CXMLMapperV2`: the document and the file it is saved to

The mapper holds a document and the path that a `SaveFile` without a path writes it to.  `LoadFile`
stores the path whether the file could be loaded or not, and a failed load has discarded the old
document by then; `RefreshXML` does not look at the result of its load.

* `PugiXml` — what the mapper uses of the library; documents, nodes and queries are its own.
* `CXMLMapperV2.step` — one call; the events carry the results of the library.
* `contents` — what a file's document has to be: its last successful load and the edits since.
* `configuration_file_kept` — while every load succeeds, a file is overwritten only with its own
  document.
-/

set_option autoImplicit false

namespace IMonPlatform

open Transition

variable {Document Node Query Value : Type}

/-- The part of pugixml behind `SetDataFromItem`. -/
structure PugiXml (Document Node Query Value : Type) where
  evaluate_node_set : Query → Document → List Node
  empty : Node → Bool
  /-- `node.text().set( value )`. -/
  setText : Document → Node → Value → Document

/-- `xml_document::load_file`: it has reset the document before it fails, and keeps what the parser
    made of the file up to the error. -/
inductive LoadResult (Document : Type) where
  | ok (document : Document)
  | failed (left : Document)

/-- The two overloads of `SaveFile`: a pointer, possibly null, or a string. -/
inductive SaveTarget where
  | pointer (pszu8FilePath : Option String)
  | string (u8FilePath : String)

/-- What counts for the contents of a file. -/
inductive XmlRecord (Document Query Value : Type) where
  /-- A successful load. -/
  | loaded (path : String) (document : Document)
  | edited (query : Query) (value : Value)

/-- A `SaveFile` without a path that has written a file, and what was recorded by then. -/
structure Saved (Document Query Value : Type) where
  path : String
  document : Document
  history : List (XmlRecord Document Query Value)

/-- The path and the document before and after a load that failed. -/
structure FailedLoad (Document : Type) where
  before : String × Document
  after : String × Document

structure CXMLMapperV2 (Document Query Value : Type) where
  xmlDocument : Document
  xmlFilePath : String
  history : List (XmlRecord Document Query Value)
  saved : List (Saved Document Query Value)
  failedLoads : List (FailedLoad Document)

inductive XmlEvent (Document Query Value : Type) where
  | LoadFile (path : String) (result : LoadResult Document)
  /-- `RefreshXML`; the result counts when there is a path. -/
  | RefreshXML (result : LoadResult Document)
  | SetDataFromItem (xmlQuery : Query) (value : Value)
  /-- `SaveFile`; `opens` tells whether the file can be opened for writing. -/
  | SaveFile (target : SaveTarget) (opens : Bool)

namespace CXMLMapperV2

/-- A new mapper has a declaration in its document and no path. -/
def create (declaration : Document) : CXMLMapperV2 Document Query Value :=
  ⟨declaration, "", [], [], []⟩

/-- The document and the path after `load_file( path )`. -/
def load (m : CXMLMapperV2 Document Query Value) (path : String) :
    LoadResult Document → CXMLMapperV2 Document Query Value
  | .ok document => { m with
      xmlDocument := document
      xmlFilePath := path
      history := m.history ++ [.loaded path document] }
  | .failed left => { m with
      xmlDocument := left
      xmlFilePath := path
      failedLoads := m.failedLoads ++ [⟨(m.xmlFilePath, m.xmlDocument), (path, left)⟩] }

/-- The loop of `SetDataFromItem` over the nodes that the query selects. -/
def edit (lib : PugiXml Document Node Query Value) (xmlQuery : Query) (value : Value)
    (document : Document) : Document :=
  (lib.evaluate_node_set xmlQuery document).foldl
    (fun d node => if lib.empty node then d else lib.setText d node value) document

/-- The path of a `SaveFile`, or `none` for the mapper's own. -/
def SaveTarget.path : SaveTarget → Option String
  | .pointer p => p
  | .string p => if p = "" then none else some p

/-- An empty name opens no file. -/
def saveOwn (m : CXMLMapperV2 Document Query Value) (opens : Bool) :
    CXMLMapperV2 Document Query Value :=
  if opens ∧ m.xmlFilePath ≠ "" then
    { m with saved := m.saved ++ [⟨m.xmlFilePath, m.xmlDocument, m.history⟩] }
  else m

def step (lib : PugiXml Document Node Query Value) (m : CXMLMapperV2 Document Query Value) :
    XmlEvent Document Query Value → Option (CXMLMapperV2 Document Query Value)
  | .LoadFile path result => some (m.load path result)
  | .RefreshXML result => if m.xmlFilePath = "" then some m else some (m.load m.xmlFilePath result)
  | .SetDataFromItem xmlQuery value => some { m with
      xmlDocument := edit lib xmlQuery value m.xmlDocument
      history := m.history ++ [.edited xmlQuery value] }
  | .SaveFile target opens =>
    match SaveTarget.path target with
    | none => some (m.saveOwn opens)
    -- a file that the caller names
    | some _ => some m

/-! ## Properties -/

/-- The last successful load of a file with the edits made since. -/
def contents (lib : PugiXml Document Node Query Value) (path : String)
    (history : List (XmlRecord Document Query Value)) : Option Document :=
  history.foldl (fun document record =>
    match record with
    | .loaded p d => if p = path then some d else document
    | .edited xmlQuery value => document.map (edit lib xmlQuery value)) none

/-- A file was overwritten only with its own document, and failed loads have changed nothing. -/
structure FileKept (lib : PugiXml Document Node Query Value)
    (m : CXMLMapperV2 Document Query Value) : Prop where
  saved : ∀ s ∈ m.saved, contents lib s.path s.history = some s.document
  failedLoads : ∀ f ∈ m.failedLoads, f.after = f.before

/-- The condition on a step: a load succeeds. -/
def LoadSucceeds (m : CXMLMapperV2 Document Query Value) : XmlEvent Document Query Value → Prop
  | .LoadFile _ (.failed _) => False
  | .RefreshXML (.failed _) => m.xmlFilePath = ""
  | _ => True

/-- What the condition maintains: the document is the one of the path, and no load has failed. -/
structure Loaded (lib : PugiXml Document Node Query Value)
    (m : CXMLMapperV2 Document Query Value) : Prop where
  current : m.xmlFilePath ≠ "" → contents lib m.xmlFilePath m.history = some m.xmlDocument
  saved : ∀ s ∈ m.saved, contents lib s.path s.history = some s.document
  failedLoads : m.failedLoads = []

/-! ## Steps -/

section Steps

variable {lib : PugiXml Document Node Query Value} {m m' : CXMLMapperV2 Document Query Value}

theorem contents_loaded (lib : PugiXml Document Node Query Value) (path : String)
    (history : List (XmlRecord Document Query Value)) (document : Document) :
    contents lib path (history ++ [.loaded path document]) = some document := by
  simp [contents]

theorem contents_edited (lib : PugiXml Document Node Query Value) (path : String)
    (history : List (XmlRecord Document Query Value)) (xmlQuery : Query) (value : Value) :
    contents lib path (history ++ [.edited xmlQuery value]) =
      (contents lib path history).map (edit lib xmlQuery value) := by
  simp [contents]

theorem Loaded.fileKept (h : Loaded lib m) : FileKept lib m := by
  refine ⟨h.saved, fun f hf => ?_⟩
  rw [h.failedLoads] at hf
  cases hf

theorem loaded_ok (h : Loaded lib m) (path : String) (document : Document) :
    Loaded lib (m.load path (.ok document)) :=
  ⟨fun _ => contents_loaded lib path m.history document, h.saved, h.failedLoads⟩

theorem loaded_saveOwn (h : Loaded lib m) (opens : Bool) : Loaded lib (m.saveOwn opens) := by
  unfold saveOwn
  split
  · rename_i hwritten
    refine ⟨h.current, fun s hs => ?_, h.failedLoads⟩
    rcases List.mem_append.mp hs with hs | hs
    · exact h.saved s hs
    · rw [List.mem_singleton.mp hs]
      exact h.current hwritten.2
  · exact h

theorem loaded_step {e : XmlEvent Document Query Value} (h : Loaded lib m) (hc : m.LoadSucceeds e)
    (hstep : step lib m e = some m') : Loaded lib m' := by
  cases e with
  | LoadFile path result =>
    cases hstep
    cases result with
    | ok document => exact loaded_ok h path document
    | failed left => exact hc.elim
  | RefreshXML result =>
    simp only [step] at hstep
    split at hstep <;> cases hstep
    · exact h
    · rename_i hpath
      cases result with
      | ok document => exact loaded_ok h m.xmlFilePath document
      | failed left => exact absurd hc hpath
  | SetDataFromItem xmlQuery value =>
    cases hstep
    refine ⟨fun hpath => ?_, h.saved, h.failedLoads⟩
    rw [contents_edited, h.current hpath]
    rfl
  | SaveFile target opens =>
    simp only [step] at hstep
    split at hstep <;> cases hstep
    · exact loaded_saveOwn h opens
    · exact h

end Steps

/-! ## Runs -/

/-- **A configuration file is overwritten only with its own document** in every run in which every
    `LoadFile`, and every `RefreshXML` with a path, succeeds. -/
theorem configuration_file_kept (lib : PugiXml Document Node Query Value) (declaration : Document)
    (es : List (XmlEvent Document Query Value))
    (hmeets : Meets (step lib) LoadSucceeds (create declaration) es) :
    Always (step lib) (FileKept lib) (create declaration) es := by
  refine always_of_meets (I := Loaded lib) (fun _ h => h.fileKept)
    (fun _ _ _ h hc hs => loaded_step h hc hs) es _ ?_ hmeets
  refine ⟨fun hpath => absurd rfl hpath, fun s hs => ?_, rfl⟩
  cases hs

/-- Documents of one text node, which every query selects. -/
def oneText : PugiXml Nat Unit Unit Nat where
  evaluate_node_set _ _ := [()]
  empty _ := false
  setText _ _ value := value

/-- A file is loaded, edited and saved, and another one after it. -/
theorem two_files_kept :
    ∃ m, run (step oneText) (create 0) [.LoadFile "a.xml" (.ok 1), .SetDataFromItem () 5,
      .SaveFile (.pointer none) true, .LoadFile "b.xml" (.ok 2), .SaveFile (.string "") true] =
        some m ∧ FileKept oneText m := by
  refine ⟨_, rfl, configuration_file_kept oneText 0 [.LoadFile "a.xml" (.ok 1),
    .SetDataFromItem () 5, .SaveFile (.pointer none) true, .LoadFile "b.xml" (.ok 2),
    .SaveFile (.string "") true] ?_ _ _ (List.prefix_refl _) rfl⟩
  exact meets_cons rfl trivial (meets_cons rfl trivial (meets_cons rfl trivial
    (meets_cons rfl trivial (meets_cons rfl trivial trivial))))

/-- A file that cannot be parsed is overwritten with what was left of it. -/
theorem unloaded_file_overwritten :
    ∃ m, run (step oneText) (create 0) [.LoadFile "a.xml" (.ok 1), .LoadFile "b.xml" (.failed 0),
      .SaveFile (.pointer none) true] = some m ∧ ¬ FileKept oneText m := by
  refine ⟨_, rfl, fun h => ?_⟩
  have hsaved := h.saved ⟨"b.xml", 0, [.loaded "a.xml" 1]⟩ List.mem_cons_self
  exact absurd hsaved (by decide)

end CXMLMapperV2

end IMonPlatform
