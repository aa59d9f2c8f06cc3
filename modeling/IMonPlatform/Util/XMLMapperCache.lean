import IMonPlatform.Lib.Relational
import IMonPlatform.Util.XMLMapperLock

/-!
# `CXMLMapperV2`: what the cache of queries changes

The operations of the mapper with their results.  `GetDataFromItem<bool>` and `SetDataFromItem` take
their query out of the cache, or compile it and keep it there; the cache stays when a document is
loaded and is cleared, without deleting its queries, by `RefreshXML`.

* `itemCall` — the operations, for any way to get a query; with `cachedQuery` those of the source,
  with `freshQuery` those of a mapper that compiles every query anew.
* `itemCall_answers` — the operations leave what those of `XMLMapperLock` leave.
* `SameBut` — two mappers that differ in their caches only.
* `cache_transparent` — nobody can tell the cached mapper from the one without a cache.
-/

set_option autoImplicit false

namespace IMonPlatform.XMLMapperCache

open Relational XMLMapperLock XMLMapperLock.Call CXMLMapperV2

variable {Document Node Query Value Vars : Type}

/-! ## Operations with results -/

/-- `tagXMLItemV2`. -/
structure XMLItem (T : Type) where
  xmlQuery : String
  xmlDefaultValue : T

/-- The library with what the mapper does to the text of a node. -/
structure XMLLibrary (Document Node Query Value Vars : Type)
    extends PugiXPath Document Node Query Value Vars where
  as_string : Document → Node → String
  /-- `boost::lexical_cast`; `none` is an exception, which is caught. -/
  lexical_cast : String → Option Value

/-- The operations; `RefreshXML` comes with the document that it leaves, and `SaveFile` with what
`xml_document::save_file` returns for a path and a document. -/
inductive ItemCall (Document Value Vars : Type) where
  | LoadFile (path : String) (result : LoadResult Document)
  | RefreshXML (document : Document)
  | SaveFile (target : SaveTarget) (save_file : String → Document → Bool)
  | GetDataFromItem (item : XMLItem Value)
  | GetDataFromItemBool (item : XMLItem Bool)
  | SetDataFromItem (item : XMLItem Value) (value : Value)
  | SetDataFromItemWithVars (item : XMLItem Value) (value : Value) (vars : Vars)
  | IsExistNode (query : String) (vars : Vars)
  | GetNodeFromXPath (query : String) (vars : Option Vars)
  | GetNodesFromXPath (query : String) (vars : Option Vars)
  | node (change : Document → Document)

inductive Answer (Node Value : Type) where
  | done
  | bool (b : Bool)
  | value (v : Value)
  /-- A node that is not empty, or none. -/
  | node (n : Option Node)
  | nodes (ns : List Node)

section Bodies

variable (lib : XMLLibrary Document Node Query Value Vars)
  (getQuery : String → XMLMapperLock.Call Document Query (Option Query))

/-- `_stricmp( .. ) == 0` with a lower-case text. -/
def stricmpEq (result word : String) : Bool := result.map Char.toLower == word

def boolOf (item : XMLItem Bool) (result : String) : Bool :=
  if stricmpEq result "true" then true
  else if stricmpEq result "false" then false
  else item.xmlDefaultValue

def GetDataFromItemBool (item : XMLItem Bool) :
    XMLMapperLock.Call Document Query (Answer Node Value) :=
  catchXPath
    (do
      EnterCriticalSection
      let pQuery ← getQuery item.xmlQuery
      let query ← dereference pQuery
      let m ← get
      let result := lib.evaluate_string query m.xmlDocument
      LeaveCriticalSection
      pure (.bool (boolOf item result)))
    (do
      LeaveCriticalSection
      pure (.bool item.xmlDefaultValue))

def SetDataFromItem (item : XMLItem Value) (value : Value) :
    XMLMapperLock.Call Document Query (Answer Node Value) := do
  EnterCriticalSection
  let pQuery ← getQuery item.xmlQuery
  let query ← dereference pQuery
  let _nodeSet ← evaluate_node_set lib.toPugiXPath query
  setNodes lib.toPugiXPath query value
  LeaveCriticalSection
  pure .done

/-- `select_single_node( .. ).node()`, unless it is empty. -/
def singleNode (nodes : List Node) : Option Node :=
  nodes.head?.filter fun n => !lib.empty n

def GetDataFromItem (item : XMLItem Value) :
    XMLMapperLock.Call Document Query (Answer Node Value) := do
  let nodes ← selectNodes lib.toPugiXPath item.xmlQuery none
  let m ← get
  match singleNode lib nodes with
  | none => pure (.value item.xmlDefaultValue)
  | some n =>
    pure (.value ((lib.lexical_cast (lib.as_string m.xmlDocument n)).getD item.xmlDefaultValue))

def IsExistNode (query : String) (vars : Vars) :
    XMLMapperLock.Call Document Query (Answer Node Value) := do
  let nodes ← selectNodes lib.toPugiXPath query (some vars)
  pure (.bool (singleNode lib nodes).isSome)

def GetNodeFromXPath (query : String) (vars : Option Vars) :
    XMLMapperLock.Call Document Query (Answer Node Value) := do
  let nodes ← selectNodes lib.toPugiXPath query vars
  pure (.node (singleNode lib nodes))

def GetNodesFromXPath (query : String) (vars : Option Vars) :
    XMLMapperLock.Call Document Query (Answer Node Value) := do
  let nodes ← selectNodes lib.toPugiXPath query vars
  pure (.nodes nodes)

/-- The document that a load leaves. -/
def leftDocument : LoadResult Document → Document
  | .ok document => document
  | .failed left => left

/-- `isSuccess = result;` -/
def isSuccess : LoadResult Document → Bool
  | .ok _ => true
  | .failed _ => false

def LoadFile (path : String) (result : LoadResult Document) :
    XMLMapperLock.Call Document Query (Answer Node Value) := do
  XMLMapperLock.LoadFile path (leftDocument result)
  pure (.bool (isSuccess result))

def SaveFile (target : SaveTarget) (save_file : String → Document → Bool) :
    XMLMapperLock.Call Document Query (Answer Node Value) := do
  EnterCriticalSection
  let m ← get
  let isSuccess := save_file ((SaveTarget.path target).getD m.xmlFilePath) m.xmlDocument
  LeaveCriticalSection
  pure (.bool isSuccess)

/-- An operation, by the way it gets a query. -/
def itemCall : ItemCall Document Value Vars → XMLMapperLock.Call Document Query (Answer Node Value)
  | .LoadFile path result => LoadFile path result
  | .RefreshXML document => do XMLMapperLock.RefreshXML document; pure .done
  | .SaveFile target save_file => SaveFile target save_file
  | .GetDataFromItem item => GetDataFromItem lib item
  | .GetDataFromItemBool item => GetDataFromItemBool lib getQuery item
  | .SetDataFromItem item value => SetDataFromItem lib getQuery item value
  | .SetDataFromItemWithVars item value vars => do
    XMLMapperLock.SetDataFromItemWithVars lib.toPugiXPath item.xmlQuery value vars
    pure .done
  | .IsExistNode query vars => IsExistNode lib query vars
  | .GetNodeFromXPath query vars => GetNodeFromXPath lib query vars
  | .GetNodesFromXPath query vars => GetNodesFromXPath lib query vars
  | .node change => do
    modify fun m => { m with xmlDocument := change m.xmlDocument }
    pure .done

/-- `new pugi::xpath_query( .. )` at every use. -/
def freshQuery (xmlQuery : String) : XMLMapperLock.Call Document Query (Option Query) := do
  let query ← newQuery lib.toPugiXPath xmlQuery none
  pure (some query)

end Bodies

/-- The operation without its result. -/
def ItemCall.toMapperCall : ItemCall Document Value Vars → MapperCall Document Value Vars
  | .LoadFile path result => .LoadFile path (leftDocument result)
  | .RefreshXML document => .RefreshXML document
  | .SaveFile _ _ => .SaveFile
  | .GetDataFromItem item => .GetDataFromItem item.xmlQuery
  | .GetDataFromItemBool item => .GetDataFromItemBool item.xmlQuery
  | .SetDataFromItem item value => .SetDataFromItem item.xmlQuery value
  | .SetDataFromItemWithVars item value vars => .SetDataFromItemWithVars item.xmlQuery value vars
  | .IsExistNode query vars => .IsExistNode query vars
  | .GetNodeFromXPath query vars => .GetNodeFromXPath query vars
  | .GetNodesFromXPath query vars => .GetNodesFromXPath query vars
  | .node change => .node change

variable {lib : XMLLibrary Document Node Query Value Vars}

/-! ## The rules for `Call` -/

section Calls

variable {R : Mapper Document Query → Mapper Document Query → Prop} {α β : Type}

theorem bind_eq (x : XMLMapperLock.Call Document Query α)
    (f : α → XMLMapperLock.Call Document Query β) :
    (x >>= f) = andThen x f := by
  funext m
  show Call.bind x f m = andThen x f m
  unfold Call.bind andThen
  rcases x m with ⟨_ | _, _⟩ <;> rfl

theorem agrees_bind {x y : XMLMapperLock.Call Document Query α}
    {f g : α → XMLMapperLock.Call Document Query β}
    (hx : Agrees R x y) (hf : ∀ a, Agrees R (f a) (g a)) : Agrees R (x >>= f) (y >>= g) := by
  rw [bind_eq, bind_eq]
  exact agrees_andThen hx hf

theorem agrees_pure (a : α) :
    Agrees R (pure a : XMLMapperLock.Call Document Query α)
      (pure a : XMLMapperLock.Call Document Query α) :=
  agrees_result (.ok a)

theorem agrees_update {f : Mapper Document Query → Mapper Document Query}
    (h : ∀ m p, R m p → R (f m) (f p)) : Agrees R (Call.modify f) (Call.modify f) :=
  agrees_modify h ()

theorem agrees_get {f g : Mapper Document Query → XMLMapperLock.Call Document Query α}
    (h : ∀ m p, R m p → Agrees R (f m) (g p)) : Agrees R (Call.get >>= f) (Call.get >>= g) :=
  agrees_at fun m p hR => ⟨f m, g p, rfl, rfl, h m p hR⟩

theorem catchXPath_eq (body handler : XMLMapperLock.Call Document Query α) :
    catchXPath body handler = handle (fun e => e == .xpath_exception) body handler := by
  funext m
  unfold catchXPath handle
  rcases hbody : body m with ⟨r, m'⟩
  cases r with
  | ok a => rfl
  | error e => cases e <;> rfl

theorem agrees_catch {x y h h' : XMLMapperLock.Call Document Query α} (hx : Agrees R x y)
    (hh : Agrees R h h') : Agrees R (catchXPath x h) (catchXPath y h') := by
  rw [catchXPath_eq, catchXPath_eq]
  exact agrees_handle hx hh

end Calls

/-! ## The operations without their results -/

section Answers

variable {α β : Type}

/-- The second call is the first one without its result. -/
def Answers (x : XMLMapperLock.Call Document Query α)
    (y : XMLMapperLock.Call Document Query Unit) : Prop :=
  ∀ m, y m = ((x m).1.map fun _ => (), (x m).2)

theorem answers_pure (a : α) : Answers (pure a : XMLMapperLock.Call Document Query α) (pure ()) :=
  fun _ => rfl

/-- An operation that returns nothing. -/
theorem answers_done (y : XMLMapperLock.Call Document Query Unit) (a : α) :
    Answers (do y; pure a) y := by
  intro m
  rcases hy : y m with ⟨e | b, m'⟩
  · rw [bind_error hy]
    rfl
  · rw [bind_ok hy]
    rfl

theorem answers_bind (x : XMLMapperLock.Call Document Query α)
    {f : α → XMLMapperLock.Call Document Query β}
    {g : α → XMLMapperLock.Call Document Query Unit} (h : ∀ a, Answers (f a) (g a)) :
    Answers (x >>= f) (x >>= g) := by
  intro m
  rcases hx : x m with ⟨a | e, m'⟩
  · rw [bind_error hx, bind_error hx]
    rfl
  · rw [bind_ok hx, bind_ok hx]
    exact h _ m'

theorem answers_catch {x h : XMLMapperLock.Call Document Query α}
    {y h' : XMLMapperLock.Call Document Query Unit}
    (hx : Answers x y) (hh : Answers h h') : Answers (catchXPath x h) (catchXPath y h') := by
  intro m
  have hxm := hx m
  unfold catchXPath
  rcases hbody : x m with ⟨e | a, m'⟩
  · rw [hbody] at hxm
    rw [hxm]
    cases e with
    | xpath_exception => exact hh m'
    | access_violation => rfl
  · rw [hbody] at hxm
    rw [hxm]
    rfl

/-- **The operations leave what those without results leave.** -/
theorem itemCall_answers (lib : XMLLibrary Document Node Query Value Vars)
    (op : ItemCall Document Value Vars) :
    Answers (itemCall lib (cachedQuery lib.toPugiXPath) op)
      (XMLMapperLock.call lib.toPugiXPath op.toMapperCall) := by
  cases op with
  | LoadFile path result => exact answers_done _ _
  | RefreshXML document => exact answers_done _ _
  | SaveFile target save_file =>
    refine answers_bind _ fun _ m => ?_
    rw [bind_get]
    exact answers_done _ _ m
  | GetDataFromItem item =>
    refine answers_bind _ fun nodes m => ?_
    rw [bind_get]
    cases singleNode lib nodes <;> rfl
  | GetDataFromItemBool item =>
    refine answers_catch ?_ (answers_done _ _)
    exact answers_bind _ fun _ => answers_bind _ fun _ => answers_bind _ fun _ =>
      answers_bind _ fun _ => answers_done _ _
  | SetDataFromItem item value =>
    exact answers_bind _ fun _ => answers_bind _ fun _ => answers_bind _ fun _ =>
      answers_bind _ fun _ => answers_bind _ fun _ => answers_done _ _
  | SetDataFromItemWithVars item value vars => exact answers_done _ _
  | IsExistNode query vars => exact answers_bind _ fun _ => answers_pure _
  | GetNodeFromXPath query vars => exact answers_bind _ fun _ => answers_pure _
  | GetNodesFromXPath query vars => exact answers_bind _ fun _ => answers_pure _
  | node change => exact answers_done _ _

end Answers

/-! ## Mappers that differ in their caches -/

section Cache

variable {m p : Mapper Document Query}

/-- But for its cache the first mapper is the second one, and in its cache each text has the query
that it compiles to. -/
def SameBut (lib : XMLLibrary Document Node Query Value Vars) (m p : Mapper Document Query) :
    Prop :=
  (∃ cache, m = { p with xmlCache := cache }) ∧ Compiled lib.toPugiXPath m

theorem SameBut.xmlDocument_eq (h : SameBut lib m p) : m.xmlDocument = p.xmlDocument := by
  obtain ⟨⟨cache, rfl⟩, -⟩ := h
  rfl

theorem SameBut.xmlFilePath_eq (h : SameBut lib m p) : m.xmlFilePath = p.xmlFilePath := by
  obtain ⟨⟨cache, rfl⟩, -⟩ := h
  rfl

/-- What touches neither cache. -/
theorem agrees_beside {f : Mapper Document Query → Mapper Document Query}
    (hf : ∀ (p : Mapper Document Query) cache,
      f { p with xmlCache := cache } = { f p with xmlCache := cache }) :
    Agrees (SameBut lib) (Call.modify f) (Call.modify f) := by
  refine agrees_update ?_
  rintro _ p ⟨⟨cache, rfl⟩, hcompiled⟩
  rw [hf]
  exact ⟨⟨cache, rfl⟩, hcompiled⟩

theorem cachedQuery_leaves (lib : PugiXPath Document Node Query Value Vars) (xmlQuery : String)
    (m : Mapper Document Query) :
    ∃ cache, (cachedQuery lib xmlQuery m).2 = { m with xmlCache := cache } := by
  have hentry (m : Mapper Document Query) :
      ∃ cache, (cacheEntry xmlQuery m).2 = { m with xmlCache := cache } := by
    rw [cacheEntry, bind_get]
    cases m.xmlCache xmlQuery with
    | none => exact ⟨_, rfl⟩
    | some pQuery => exact ⟨m.xmlCache, rfl⟩
  rw [cachedQuery, bind_get]
  cases m.xmlCache xmlQuery with
  | some pQuery => exact hentry m
  | none =>
    rcases newQuery_cases lib xmlQuery none m with ⟨query, hnew⟩ | hnew
    · dsimp only
      rw [bind_ok hnew, bind_modify]
      exact hentry _
    · dsimp only
      rw [bind_error hnew]
      exact ⟨m.xmlCache, rfl⟩

/-- A query out of the cache is the one that is compiled anew, and it leaves no more than the
cache. -/
theorem agrees_query (lib : XMLLibrary Document Node Query Value Vars) (xmlQuery : String) :
    Agrees (SameBut lib) (cachedQuery lib.toPugiXPath xmlQuery) (freshQuery lib xmlQuery) := by
  rintro m p hsame
  have hcompiled := hsame.2
  cases hquery : lib.compile xmlQuery none with
  | none =>
    have hfresh : freshQuery lib xmlQuery p = (.error .xpath_exception, p) := by
      refine bind_error ?_
      rw [newQuery, hquery]
      rfl
    rw [cachedQuery_throws hcompiled hquery, hfresh]
    exact ⟨rfl, hsame⟩
  | some query =>
    have hfresh : freshQuery lib xmlQuery p = (.ok (some query), p) := by
      have hnew : newQuery lib.toPugiXPath xmlQuery none p = (.ok query, p) := by
        rw [newQuery, hquery]
        rfl
      rw [freshQuery, bind_ok hnew]
      rfl
    obtain ⟨left, hcached, hleft, -⟩ := cachedQuery_ok hcompiled hquery
    obtain ⟨cache, hcache⟩ := cachedQuery_leaves lib.toPugiXPath xmlQuery m
    rw [hcached] at hcache
    rw [hcached, hfresh]
    refine ⟨rfl, ?_, hleft⟩
    obtain ⟨⟨old, rfl⟩, -⟩ := hsame
    exact ⟨cache, hcache⟩

end Cache

/-! ## The operations agree -/

section Bodies

variable (lib : XMLLibrary Document Node Query Value Vars)

theorem agrees_dereference (pQuery : Option Query) :
    Agrees (SameBut lib) (dereference pQuery : XMLMapperLock.Call Document Query Query)
      (dereference pQuery) := by
  cases pQuery <;> exact agrees_result _

theorem agrees_enter :
    Agrees (SameBut lib) (EnterCriticalSection : XMLMapperLock.Call Document Query Unit)
      EnterCriticalSection :=
  agrees_beside fun _ _ => rfl

theorem agrees_leave :
    Agrees (SameBut lib) (LeaveCriticalSection : XMLMapperLock.Call Document Query Unit)
      LeaveCriticalSection :=
  agrees_beside fun _ _ => rfl

theorem agrees_evaluate (query : Query) :
    Agrees (SameBut lib) (evaluate_node_set lib.toPugiXPath query)
      (evaluate_node_set lib.toPugiXPath query) := by
  refine agrees_get fun m p h => ?_
  rw [h.xmlDocument_eq]
  split
  · exact agrees_pure _
  · exact agrees_result _

theorem agrees_setNodes (query : Query) (value : Value) :
    Agrees (SameBut lib) (setNodes lib.toPugiXPath query value)
      (setNodes lib.toPugiXPath query value) :=
  agrees_beside fun _ _ => rfl

theorem agrees_newQuery (xmlQuery : String) (vars : Option Vars) :
    Agrees (SameBut lib)
      (newQuery lib.toPugiXPath xmlQuery vars : XMLMapperLock.Call Document Query Query)
      (newQuery lib.toPugiXPath xmlQuery vars) := by
  unfold newQuery
  cases lib.compile xmlQuery vars <;> exact agrees_result _

theorem agrees_select (xmlQuery : String) (vars : Option Vars) :
    Agrees (SameBut lib) (selectNodes lib.toPugiXPath xmlQuery vars)
      (selectNodes lib.toPugiXPath xmlQuery vars) :=
  agrees_bind (agrees_newQuery lib xmlQuery vars) fun query => agrees_evaluate lib query

/-- A document loaded from the mapper's own path. -/
theorem agrees_refresh (document : Document) :
    Agrees (SameBut lib) (XMLMapperLock.RefreshXML document) (XMLMapperLock.RefreshXML document) := by
  refine agrees_get fun m p h => ?_
  obtain ⟨⟨cache, rfl⟩, -⟩ := h
  dsimp only
  split
  · exact agrees_pure ()
  · refine agrees_update ?_
    rintro _ p ⟨⟨cache, rfl⟩, -⟩
    refine ⟨⟨fun _ => none, rfl⟩, fun s pQuery hs => ?_⟩
    cases hs

/-- **An operation on the cache does what it does with a new query.** -/
theorem agrees_itemCall (op : ItemCall Document Value Vars) :
    Agrees (SameBut lib) (itemCall lib (cachedQuery lib.toPugiXPath) op)
      (itemCall lib (freshQuery lib) op) := by
  cases op with
  | LoadFile path result =>
    exact agrees_bind (agrees_beside fun _ _ => rfl) fun _ => agrees_pure _
  | RefreshXML document => exact agrees_bind (agrees_refresh lib document) fun _ => agrees_pure _
  | SaveFile target save_file =>
    refine agrees_bind (agrees_enter lib) fun _ => ?_
    refine agrees_get fun m p h => ?_
    rw [h.xmlFilePath_eq, h.xmlDocument_eq]
    exact agrees_bind (agrees_leave lib) fun _ => agrees_pure _
  | GetDataFromItem item =>
    refine agrees_bind (agrees_select lib item.xmlQuery none) fun nodes => ?_
    refine agrees_get fun m p h => ?_
    rw [h.xmlDocument_eq]
    cases singleNode lib nodes <;> exact agrees_pure _
  | GetDataFromItemBool item =>
    refine agrees_catch ?_ (agrees_bind (agrees_leave lib) fun _ => agrees_pure _)
    refine agrees_bind (agrees_enter lib) fun _ => ?_
    refine agrees_bind (agrees_query lib item.xmlQuery) fun pQuery => ?_
    refine agrees_bind (agrees_dereference lib pQuery) fun query => ?_
    refine agrees_get fun m p h => ?_
    rw [h.xmlDocument_eq]
    exact agrees_bind (agrees_leave lib) fun _ => agrees_pure _
  | SetDataFromItem item value =>
    refine agrees_bind (agrees_enter lib) fun _ => ?_
    refine agrees_bind (agrees_query lib item.xmlQuery) fun pQuery => ?_
    refine agrees_bind (agrees_dereference lib pQuery) fun query => ?_
    refine agrees_bind (agrees_evaluate lib query) fun _ => ?_
    refine agrees_bind (agrees_setNodes lib query value) fun _ => ?_
    exact agrees_bind (agrees_leave lib) fun _ => agrees_pure _
  | SetDataFromItemWithVars item value vars =>
    refine agrees_bind ?_ fun _ => agrees_pure _
    refine agrees_bind (agrees_newQuery lib item.xmlQuery (some vars)) fun query => ?_
    exact agrees_bind (agrees_evaluate lib query) fun _ => agrees_setNodes lib query value
  | IsExistNode query vars =>
    exact agrees_bind (agrees_select lib query (some vars)) fun _ => agrees_pure _
  | GetNodeFromXPath query vars =>
    exact agrees_bind (agrees_select lib query vars) fun _ => agrees_pure _
  | GetNodesFromXPath query vars =>
    exact agrees_bind (agrees_select lib query vars) fun _ => agrees_pure _
  | node change =>
    exact agrees_bind (agrees_beside fun _ _ => rfl) fun _ => agrees_pure _

end Bodies

/-- No operation dereferences a null pointer of the cache. -/
theorem itemCall_safe {m : Mapper Document Query} (h : Compiled lib.toPugiXPath m)
    (op : ItemCall Document Value Vars) :
    (itemCall lib (cachedQuery lib.toPugiXPath) op m).1 ≠ .error .access_violation := by
  intro hcrash
  have hcall := itemCall_answers lib op m
  rw [hcrash] at hcall
  by_cases hguard : Guarded lib.toPugiXPath op.toMapperCall
  · obtain ⟨r, left, hends, hr, -⟩ := ends_call h hguard
    rw [hends] at hcall
    exact hr (congrArg Prod.fst hcall)
  · cases op with
    | SetDataFromItem item value =>
      obtain ⟨left, hthrows, -⟩ := throws_set h value hguard
      rw [ItemCall.toMapperCall, call, hthrows] at hcall
      cases congrArg Prod.fst hcall
    | LoadFile | RefreshXML | SaveFile | GetDataFromItem | GetDataFromItemBool
    | SetDataFromItemWithVars | IsExistNode | GetNodeFromXPath | GetNodesFromXPath | node =>
      exact hguard trivial

/-! ## Runs -/

/-- **Nobody can tell the cached mapper from one that compiles every query anew**: in every run of
operations the results, exceptions included, are the same, none of them is an access violation, and
document, path and holds of the section are the same at the end. -/
theorem cache_transparent (lib : XMLLibrary Document Node Query Value Vars) (holds : Int)
    (document : Document) (path : String) (ops : List (ItemCall Document Value Vars)) :
    let cached := results (itemCall lib (cachedQuery lib.toPugiXPath)) ops
      (start holds document path)
    let fresh := results (itemCall lib (freshQuery lib)) ops (start holds document path)
    cached.1 = fresh.1 ∧ (∀ r ∈ cached.1, r ≠ .error .access_violation) ∧
      ∃ cache, cached.2 = { fresh.2 with xmlCache := cache } := by
  have hstart : SameBut lib (start holds document path) (start holds document path) :=
    ⟨⟨_, rfl⟩, fun s pQuery hs => by cases hs⟩
  obtain ⟨hresults, hsame, -⟩ := agrees_results (agrees_itemCall lib) ops _ _ hstart
  refine ⟨hresults, ?_, hsame⟩
  exact results_of_related (agrees_itemCall lib) (fun op _ _ h => itemCall_safe h.2 op) ops _ _ hstart

end IMonPlatform.XMLMapperCache
