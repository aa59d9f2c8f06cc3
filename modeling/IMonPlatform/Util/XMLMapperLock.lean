import IMonPlatform.Util.XMLMapper

/-!
# `CXMLMapperV2`: the critical section and the cache of queries

`GetDataFromItem<bool>` and `SetDataFromItem` look their query up in a cache under a critical
section.  The library throws where a query does not compile, and where a node set is asked of a
query that gives something else.  Only `GetDataFromItem<bool>` catches that.

* `PugiXPath` — the queries of the library; `ValueType` — what a query gives.
* `Call` — a call that returns or throws, and leaves a state in both cases.
* `MapperCall`, `call` — the operations and their bodies.
* `Balanced` — the section is held as often as before, and the cache has no missing query.
* `lock_balanced_iff` — a run is balanced exactly if no `SetDataFromItem` has a query that throws.
-/

set_option autoImplicit false

namespace IMonPlatform.XMLMapperLock

open Transition

variable {Document Node Query Value Vars : Type}

/-! ## The library -/

/-- `xpath_value_type` -/
inductive ValueType where
  | node_set
  | number
  | string
  | boolean
  deriving DecidableEq

structure PugiXPath (Document Node Query Value Vars : Type)
    extends PugiXml Document Node Query Value where
  /-- The constructor of `xpath_query`; `none` is an `xpath_exception`. -/
  compile : String → Option Vars → Option Query
  rettype : Query → ValueType
  evaluate_string : Query → Document → String

/-- What is thrown. -/
inductive Raised where
  | xpath_exception
  /-- A null pointer has been dereferenced. -/
  | access_violation
  deriving DecidableEq

/-! ## Calls -/

structure Mapper (Document Query : Type) where
  /-- The times that the calling thread holds `_cs`. -/
  holds : Int
  /-- `_xmlCache`; a pointer in it may be null. -/
  xmlCache : String → Option (Option Query)
  xmlDocument : Document
  xmlFilePath : String

/-- What is done up to the return or the exception stays done. -/
def Call (Document Query α : Type) : Type :=
  Mapper Document Query → Except Raised α × Mapper Document Query

namespace Call

variable {α β : Type}

def bind (x : Call Document Query α) (f : α → Call Document Query β) : Call Document Query β :=
  fun m =>
    match x m with
    | (.ok a, m') => f a m'
    | (.error e, m') => (.error e, m')

instance : Monad (Call Document Query) where
  pure a := fun m => (.ok a, m)
  bind := bind

def throw (e : Raised) : Call Document Query α := fun m => (.error e, m)

def get : Call Document Query (Mapper Document Query) := fun m => (.ok m, m)

def modify (f : Mapper Document Query → Mapper Document Query) : Call Document Query Unit :=
  fun m => (.ok (), f m)

/-- `catch( const pugi::xpath_exception& e )` -/
def catchXPath (body handler : Call Document Query α) : Call Document Query α := fun m =>
  match body m with
  | (.error .xpath_exception, m') => handler m'
  | result => result

theorem bind_ok {x : Call Document Query α} {f : α → Call Document Query β} {a : α}
    {m m' : Mapper Document Query} (h : x m = (.ok a, m')) : (x >>= f) m = f a m' := by
  show bind x f m = f a m'
  rw [bind, h]

theorem bind_error {x : Call Document Query α} {f : α → Call Document Query β} {e : Raised}
    {m m' : Mapper Document Query} (h : x m = (.error e, m')) :
    (x >>= f) m = (.error e, m') := by
  show bind x f m = _
  rw [bind, h]

theorem bind_get (f : Mapper Document Query → Call Document Query β) (m : Mapper Document Query) :
    (get >>= f) m = f m m := rfl

theorem bind_modify (g : Mapper Document Query → Mapper Document Query)
    (f : Unit → Call Document Query β) (m : Mapper Document Query) :
    (modify g >>= f) m = f () (g m) := rfl

end Call

open XMLMapperLock.Call

def EnterCriticalSection : Call Document Query Unit :=
  modify fun m => { m with holds := m.holds + 1 }

def LeaveCriticalSection : Call Document Query Unit :=
  modify fun m => { m with holds := m.holds - 1 }

section Bodies

variable (lib : PugiXPath Document Node Query Value Vars)

/-- `pugi::xpath_query( .. )` -/
def newQuery (xmlQuery : String) (vars : Option Vars) : Call Document Query Query :=
  match lib.compile xmlQuery vars with
  | none => throw .xpath_exception
  | some query => pure query

/-- `pQuery = _xmlCache[ .. ];`, which makes an entry of a null pointer where there is none. -/
def cacheEntry (xmlQuery : String) : Call Document Query (Option Query) := do
  let m ← get
  match m.xmlCache xmlQuery with
  | some pQuery => pure pQuery
  | none => do
    modify fun m => { m with xmlCache := fun s => if s = xmlQuery then some none else m.xmlCache s }
    pure none

/-- From `_xmlCache.count( .. )` to `pQuery = _xmlCache[ .. ];`. -/
def cachedQuery (xmlQuery : String) : Call Document Query (Option Query) := do
  let m ← get
  match m.xmlCache xmlQuery with
  | some _ => cacheEntry xmlQuery
  | none => do
    let query ← newQuery lib xmlQuery none
    modify fun m =>
      { m with xmlCache := fun s => if s = xmlQuery then some (some query) else m.xmlCache s }
    cacheEntry xmlQuery

/-- `pQuery->` -/
def dereference (pQuery : Option Query) : Call Document Query Query :=
  match pQuery with
  | none => throw .access_violation
  | some query => pure query

def evaluate_node_set (query : Query) : Call Document Query (List Node) := do
  let m ← get
  if lib.rettype query = .node_set then pure (lib.evaluate_node_set query m.xmlDocument)
  else throw .xpath_exception

/-- The loop over the nodes. -/
def setNodes (query : Query) (value : Value) : Call Document Query Unit :=
  modify fun m =>
    { m with xmlDocument := CXMLMapperV2.edit lib.toPugiXml query value m.xmlDocument }

/-- `GetDataFromItem<bool>`; of the result it does not matter which value it is. -/
def GetDataFromItemBool (xmlQuery : String) : Call Document Query Unit :=
  catchXPath
    (do
      EnterCriticalSection
      let pQuery ← cachedQuery lib xmlQuery
      let query ← dereference pQuery
      let m ← get
      let _result := lib.evaluate_string query m.xmlDocument
      LeaveCriticalSection)
    LeaveCriticalSection

def SetDataFromItem (xmlQuery : String) (value : Value) :
    Call Document Query Unit := do
  EnterCriticalSection
  let pQuery ← cachedQuery lib xmlQuery
  let query ← dereference pQuery
  let _nodeSet ← evaluate_node_set lib query
  setNodes lib query value
  LeaveCriticalSection

/-- `select_single_node` and `select_nodes` -/
def selectNodes (xmlQuery : String) (vars : Option Vars) : Call Document Query (List Node) := do
  let query ← newQuery lib xmlQuery vars
  evaluate_node_set lib query

/-- `GetDataFromItem` of the other types; `boost::bad_lexical_cast` is caught. -/
def GetDataFromItem (xmlQuery : String) : Call Document Query (List Node) :=
  selectNodes lib xmlQuery none

def IsExistNode (xmlQuery : String) (vars : Vars) : Call Document Query (List Node) :=
  selectNodes lib xmlQuery (some vars)

def GetNodeFromXPath (xmlQuery : String) (vars : Option Vars) : Call Document Query (List Node) :=
  selectNodes lib xmlQuery vars

def GetNodesFromXPath (xmlQuery : String) (vars : Option Vars) : Call Document Query (List Node) :=
  selectNodes lib xmlQuery vars

def SetDataFromItemWithVars (xmlQuery : String) (value : Value) (vars : Vars) :
    Call Document Query Unit := do
  let query ← newQuery lib xmlQuery (some vars)
  let _xmlNodeSet ← evaluate_node_set lib query
  setNodes lib query value

end Bodies

/-- Both overloads of `SaveFile`. -/
def SaveFile : Call Document Query Unit := do
  EnterCriticalSection
  LeaveCriticalSection

def LoadFile (path : String) (document : Document) : Call Document Query Unit :=
  modify fun m => { m with xmlDocument := document, xmlFilePath := path }

def RefreshXML (document : Document) : Call Document Query Unit := do
  let m ← get
  if m.xmlFilePath = "" then pure ()
  else modify fun m => { m with xmlCache := fun _ => none, xmlDocument := document }

/-! ## Operations -/

/-- The public operations; a load comes with the document that it leaves. -/
inductive MapperCall (Document Value Vars : Type) where
  | LoadFile (path : String) (document : Document)
  | RefreshXML (document : Document)
  | SaveFile
  | GetDataFromItem (xmlQuery : String)
  | GetDataFromItemBool (xmlQuery : String)
  | SetDataFromItem (xmlQuery : String) (value : Value)
  | SetDataFromItemWithVars (xmlQuery : String) (value : Value) (vars : Vars)
  | IsExistNode (xmlQuery : String) (vars : Vars)
  | GetNodeFromXPath (xmlQuery : String) (vars : Option Vars)
  | GetNodesFromXPath (xmlQuery : String) (vars : Option Vars)
  /-- `CreateNode`, `GetNode`, `SetValue` and what the caller does with `GetDocument`. -/
  | node (change : Document → Document)

section Runs

variable (lib : PugiXPath Document Node Query Value Vars)

def call : MapperCall Document Value Vars → Call Document Query Unit
  | .LoadFile path document => LoadFile path document
  | .RefreshXML document => RefreshXML document
  | .SaveFile => SaveFile
  | .GetDataFromItem xmlQuery => do let _ ← GetDataFromItem lib xmlQuery
  | .GetDataFromItemBool xmlQuery => GetDataFromItemBool lib xmlQuery
  | .SetDataFromItem xmlQuery value => SetDataFromItem lib xmlQuery value
  | .SetDataFromItemWithVars xmlQuery value vars => SetDataFromItemWithVars lib xmlQuery value vars
  | .IsExistNode xmlQuery vars => do let _ ← IsExistNode lib xmlQuery vars
  | .GetNodeFromXPath xmlQuery vars => do let _ ← GetNodeFromXPath lib xmlQuery vars
  | .GetNodesFromXPath xmlQuery vars => do let _ ← GetNodesFromXPath lib xmlQuery vars
  | .node change => modify fun m => { m with xmlDocument := change m.xmlDocument }

/-- An operation that returns or throws; `none` is the end of the process. -/
def step (m : Mapper Document Query) (op : MapperCall Document Value Vars) :
    Option (Mapper Document Query) :=
  match call lib op m with
  | (.error .access_violation, _) => none
  | (_, m') => some m'

/-- A thread that holds the section so often comes to a mapper with an empty cache. -/
def start (holds : Int) (document : Document) (path : String) : Mapper Document Query :=
  ⟨holds, fun _ => none, document, path⟩

/-- The section is held as often as at the start, and no query of the cache is missing. -/
def Balanced (holds : Int) (m : Mapper Document Query) : Prop :=
  m.holds = holds ∧ ∀ s, m.xmlCache s ≠ some none

/-- The query of a `SetDataFromItem` compiles and gives a node set. -/
def Guarded : MapperCall Document Value Vars → Prop
  | .SetDataFromItem xmlQuery _ =>
    ∃ query, lib.compile xmlQuery none = some query ∧ lib.rettype query = .node_set
  | _ => True

/-- The cache has the queries that their texts compile to. -/
def Compiled (m : Mapper Document Query) : Prop :=
  ∀ s pQuery, m.xmlCache s = some pQuery →
    ∃ query, pQuery = some query ∧ lib.compile s none = some query

end Runs

/-! ## What the bodies do -/

section Specs

variable {lib : PugiXPath Document Node Query Value Vars} {m : Mapper Document Query}
  {xmlQuery : String}

theorem cacheEntry_some {pQuery : Option Query} (h : m.xmlCache xmlQuery = some pQuery) :
    cacheEntry xmlQuery m = (.ok pQuery, m) := by
  show (match m.xmlCache xmlQuery with
    | some pQuery => (pure pQuery : Call Document Query (Option Query))
    | none => _) m = _
  rw [h]
  rfl

/-- A query that compiles is in the cache afterwards. -/
theorem cachedQuery_ok (h : Compiled lib m) {query : Query}
    (hquery : lib.compile xmlQuery none = some query) :
    ∃ m', cachedQuery lib xmlQuery m = (.ok (some query), m') ∧ Compiled lib m' ∧
      m'.holds = m.holds := by
  cases hcache : m.xmlCache xmlQuery with
  | some pQuery =>
    obtain ⟨query', rfl, hquery'⟩ := h xmlQuery pQuery hcache
    obtain rfl : query' = query := Option.some.inj (hquery'.symm.trans hquery)
    refine ⟨m, ?_, h, rfl⟩
    rw [cachedQuery, bind_get]
    simp only [hcache]
    exact cacheEntry_some hcache
  | none =>
    refine ⟨{ m with xmlCache := fun s =>
      if s = xmlQuery then some (some query) else m.xmlCache s }, ?_, ?_, rfl⟩
    · have hnew : newQuery lib xmlQuery none m = (.ok query, m) := by
        rw [newQuery, hquery]
        rfl
      rw [cachedQuery, bind_get]
      simp only [hcache]
      rw [bind_ok hnew, bind_modify]
      exact cacheEntry_some (if_pos rfl)
    · intro s pQuery hs
      dsimp only at hs
      split at hs
      · rename_i heq
        exact ⟨query, (Option.some.inj hs).symm, heq ▸ hquery⟩
      · exact h s pQuery hs

/-- A query that does not compile is not in the cache, and throws. -/
theorem cachedQuery_throws (h : Compiled lib m) (hquery : lib.compile xmlQuery none = none) :
    cachedQuery lib xmlQuery m = (.error .xpath_exception, m) := by
  have hcache : m.xmlCache xmlQuery = none := by
    cases hcache : m.xmlCache xmlQuery with
    | none => rfl
    | some pQuery =>
      obtain ⟨query, -, hquery'⟩ := h xmlQuery pQuery hcache
      rw [hquery] at hquery'
      cases hquery'
  have hnew : newQuery lib xmlQuery none m = (.error .xpath_exception, m) := by
    rw [newQuery, hquery]
    rfl
  rw [cachedQuery, bind_get]
  simp only [hcache]
  rw [bind_error hnew]

theorem newQuery_cases (lib : PugiXPath Document Node Query Value Vars) (xmlQuery : String)
    (vars : Option Vars) (m : Mapper Document Query) :
    (∃ query, newQuery lib xmlQuery vars m = (.ok query, m)) ∨
      newQuery lib xmlQuery vars m = (.error .xpath_exception, m) := by
  rw [newQuery]
  cases lib.compile xmlQuery vars with
  | none => exact .inr rfl
  | some query => exact .inl ⟨query, rfl⟩

theorem evaluate_node_set_ok {query : Query} (h : lib.rettype query = .node_set) :
    evaluate_node_set lib query m = (.ok (lib.evaluate_node_set query m.xmlDocument), m) := by
  rw [evaluate_node_set, bind_get, if_pos h]
  rfl

theorem evaluate_node_set_throws {query : Query} (h : lib.rettype query ≠ .node_set) :
    evaluate_node_set lib query m = (.error .xpath_exception, m) := by
  rw [evaluate_node_set, bind_get, if_neg h]
  rfl

/-- A call that ends without a crash, keeps the queries of the cache and changes the holds. -/
def Ends {α : Type} (lib : PugiXPath Document Node Query Value Vars) (x : Call Document Query α)
    (m : Mapper Document Query) (gain : Int) : Prop :=
  ∃ r m', x m = (r, m') ∧ r ≠ .error .access_violation ∧ Compiled lib m' ∧
    m'.holds = m.holds + gain

/-- What neither throws nor touches the section and the cache. -/
theorem ends_modify (h : Compiled lib m) {f : Mapper Document Query → Mapper Document Query}
    (hcache : (f m).xmlCache = m.xmlCache) (hholds : (f m).holds = m.holds) :
    Ends lib (modify f) m 0 := by
  refine ⟨.ok (), f m, rfl, nofun, fun s pQuery hs => h s pQuery ?_, by omega⟩
  rw [← hcache]
  exact hs

/-- A query that is not cached is evaluated outside of the section. -/
theorem selectNodes_unchanged (lib : PugiXPath Document Node Query Value Vars) (xmlQuery : String)
    (vars : Option Vars) (m : Mapper Document Query) :
    ∃ r, selectNodes lib xmlQuery vars m = (r, m) ∧ r ≠ .error .access_violation := by
  rw [selectNodes]
  rcases newQuery_cases lib xmlQuery vars m with ⟨query, hnew⟩ | hnew
  · rw [bind_ok hnew]
    by_cases htype : lib.rettype query = .node_set
    · exact ⟨_, evaluate_node_set_ok htype, nofun⟩
    · exact ⟨_, evaluate_node_set_throws htype, nofun⟩
  · exact ⟨_, bind_error hnew, nofun⟩

theorem ends_select (h : Compiled lib m) (vars : Option Vars) :
    Ends lib (do let _ ← selectNodes lib xmlQuery vars) m 0 := by
  obtain ⟨r, hselect, hr⟩ := selectNodes_unchanged lib xmlQuery vars m
  cases r with
  | ok nodes => exact ⟨.ok (), m, bind_ok hselect, nofun, h, by omega⟩
  | error e =>
    refine ⟨.error e, m, bind_error hselect, fun he => hr ?_, h, by omega⟩
    rw [Except.error.inj he]

theorem ends_withVars (h : Compiled lib m) (value : Value) (vars : Vars) :
    Ends lib (SetDataFromItemWithVars lib xmlQuery value vars) m 0 := by
  rw [SetDataFromItemWithVars]
  rcases newQuery_cases lib xmlQuery (some vars) m with ⟨query, hnew⟩ | hnew
  · rw [Ends, bind_ok hnew]
    by_cases htype : lib.rettype query = .node_set
    · rw [bind_ok (evaluate_node_set_ok htype)]
      exact ends_modify h rfl rfl
    · exact ⟨_, m, bind_error (evaluate_node_set_throws htype), nofun, h, by omega⟩
  · exact ⟨_, m, bind_error hnew, nofun, h, by omega⟩

theorem compiled_holds (h : Compiled lib m) (holds : Int) : Compiled lib { m with holds } := h

/-- **`GetDataFromItem<bool>` leaves the section** on its return and in its handler. -/
theorem ends_getBool (h : Compiled lib m) : Ends lib (GetDataFromItemBool lib xmlQuery) m 0 := by
  rw [GetDataFromItemBool, Ends, catchXPath, EnterCriticalSection, bind_modify]
  have hin := compiled_holds h (m.holds + 1)
  cases hquery : lib.compile xmlQuery none with
  | none =>
    rw [bind_error (cachedQuery_throws hin hquery)]
    exact ⟨.ok (), _, rfl, nofun, h, by show m.holds + 1 - 1 = m.holds + 0; omega⟩
  | some query =>
    obtain ⟨m', hcached, hcompiled, hholds⟩ := cachedQuery_ok hin hquery
    rw [bind_ok hcached]
    refine ⟨.ok (), { m' with holds := m'.holds - 1 }, rfl, nofun, hcompiled, ?_⟩
    show m'.holds - 1 = m.holds + 0
    dsimp only at hholds
    omega

/-- **`SetDataFromItem` leaves the section if its query gives a node set.** -/
theorem ends_set (h : Compiled lib m) (value : Value) {query : Query}
    (hquery : lib.compile xmlQuery none = some query) (htype : lib.rettype query = .node_set) :
    Ends lib (SetDataFromItem lib xmlQuery value) m 0 := by
  rw [SetDataFromItem, Ends, EnterCriticalSection, bind_modify]
  obtain ⟨m', hcached, hcompiled, hholds⟩ :=
    cachedQuery_ok (compiled_holds h (m.holds + 1)) hquery
  have hdereference : dereference (some query) m' = (.ok query, m') := rfl
  rw [bind_ok hcached, bind_ok hdereference, bind_ok (evaluate_node_set_ok htype), setNodes,
    bind_modify]
  refine ⟨.ok (), _, rfl, nofun, hcompiled, ?_⟩
  show m'.holds - 1 = m.holds + 0
  dsimp only at hholds
  omega

/-- **Otherwise it throws inside the section.** -/
theorem throws_set (h : Compiled lib m) (value : Value)
    (hguard : ¬ Guarded lib (.SetDataFromItem xmlQuery value)) :
    ∃ m', SetDataFromItem lib xmlQuery value m = (.error .xpath_exception, m') ∧
      m'.holds = m.holds + 1 := by
  rw [SetDataFromItem, EnterCriticalSection, bind_modify]
  have hin := compiled_holds h (m.holds + 1)
  cases hquery : lib.compile xmlQuery none with
  | none => exact ⟨_, bind_error (cachedQuery_throws hin hquery), rfl⟩
  | some query =>
    have htype : lib.rettype query ≠ .node_set := fun htype => hguard ⟨query, hquery, htype⟩
    obtain ⟨m', hcached, -, hholds⟩ := cachedQuery_ok hin hquery
    have hdereference : dereference (some query) m' = (.ok query, m') := rfl
    rw [bind_ok hcached, bind_ok hdereference]
    exact ⟨m', bind_error (evaluate_node_set_throws htype), hholds⟩

/-- Every other operation, and a `SetDataFromItem` with such a query, leaves the section. -/
theorem ends_call (h : Compiled lib m) {op : MapperCall Document Value Vars}
    (hguard : Guarded lib op) : Ends lib (call lib op) m 0 := by
  cases op with
  | LoadFile path document => exact ends_modify h rfl rfl
  | RefreshXML document =>
    rw [call, RefreshXML, Ends, bind_get]
    split
    · exact ⟨.ok (), m, rfl, nofun, h, by omega⟩
    · exact ⟨.ok (), _, rfl, nofun, nofun, by show m.holds = m.holds + 0; omega⟩
  | SaveFile =>
    refine ⟨.ok (), { m with holds := m.holds + 1 - 1 }, rfl, nofun, h, ?_⟩
    show m.holds + 1 - 1 = m.holds + 0
    omega
  | GetDataFromItem xmlQuery => exact ends_select h none
  | GetDataFromItemBool xmlQuery => exact ends_getBool h
  | SetDataFromItem xmlQuery value =>
    obtain ⟨query, hquery, htype⟩ := hguard
    exact ends_set h value hquery htype
  | SetDataFromItemWithVars xmlQuery value vars => exact ends_withVars h value vars
  | IsExistNode xmlQuery vars => exact ends_select h (some vars)
  | GetNodeFromXPath xmlQuery vars => exact ends_select h vars
  | GetNodesFromXPath xmlQuery vars => exact ends_select h vars
  | node change => exact ends_modify h rfl rfl

end Specs

/-! ## Runs -/

/-- The invariant of the balanced runs. -/
def Level (lib : PugiXPath Document Node Query Value Vars) (holds : Int)
    (m : Mapper Document Query) : Prop := m.holds = holds ∧ Compiled lib m

section Result

variable {lib : PugiXPath Document Node Query Value Vars} {holds : Int}
  {m m' : Mapper Document Query} {op : MapperCall Document Value Vars}

theorem Level.balanced (h : Level lib holds m) : Balanced holds m := by
  refine ⟨h.1, fun s hs => ?_⟩
  obtain ⟨query, hquery, -⟩ := h.2 s none hs
  cases hquery

theorem step_level (h : Level lib holds m) (hguard : Guarded lib op)
    (hstep : step lib m op = some m') : Level lib holds m' := by
  obtain ⟨r, left, hcall, -, hcompiled, hholds⟩ := ends_call h.2 hguard
  have hleft : m' = left := by
    rw [step, hcall] at hstep
    split at hstep
    · cases hstep
    · rename_i hresult
      cases hresult
      exact (Option.some.inj hstep).symm
  rw [hleft]
  exact ⟨by rw [hholds, h.1]; omega, hcompiled⟩

theorem step_unguarded (h : Level lib holds m) (hguard : ¬ Guarded lib op)
    (hstep : step lib m op = some m') : ¬ Balanced holds m' := by
  cases op with
  | SetDataFromItem xmlQuery value =>
    obtain ⟨left, hcall, hholds⟩ := throws_set h.2 value hguard
    rw [step, call, hcall] at hstep
    obtain rfl : left = m' := Option.some.inj hstep
    rintro ⟨hsame, -⟩
    rw [hholds, h.1] at hsame
    omega
  | LoadFile | RefreshXML | SaveFile | GetDataFromItem | GetDataFromItemBool
  | SetDataFromItemWithVars | IsExistNode | GetNodeFromXPath | GetNodesFromXPath | node =>
    exact absurd trivial hguard

/-- **A run is balanced exactly if every `SetDataFromItem` in it has a query that compiles and gives
a node set.** -/
theorem lock_balanced_iff (lib : PugiXPath Document Node Query Value Vars) (holds : Int)
    (document : Document) (path : String) (ops : List (MapperCall Document Value Vars)) :
    Always (step lib) (Balanced holds) (start holds document path) ops ↔
      Meets (step lib) (fun _ => Guarded lib) (start holds document path) ops :=
  always_iff_meets (I := Level lib holds) (fun _ => Level.balanced)
    (fun _ _ _ h hguard hstep => step_level h hguard hstep)
    (fun _ _ _ h hguard hstep => step_unguarded h hguard hstep) ops _ ⟨rfl, nofun⟩

end Result

/-- Queries without variables; `[` does not compile, `1` is a number and the others are names. -/
def tinyXPath : PugiXPath Nat Unit String Nat Unit where
  toPugiXml := ⟨fun _ _ => [()], fun _ => false, fun _ _ value => value⟩
  compile xmlQuery _ := if xmlQuery = "[" then none else some xmlQuery
  rettype query := if query = "1" then .number else .node_set
  evaluate_string query _ := query

/-- After a query that does not compile the section is held. -/
theorem section_kept : ∃ m, run (step tinyXPath) (start 0 0 "") [.SetDataFromItem "[" 5] = some m ∧
    m.holds = 1 ∧ ¬ Balanced 0 m := by
  refine ⟨_, rfl, rfl, ?_⟩
  rintro ⟨hholds, -⟩
  exact absurd hholds (by decide)

end IMonPlatform.XMLMapperLock
