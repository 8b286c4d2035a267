import ModSecurityIIS.RulesKept

/-!
# The rules of many paths

One cache serves all paths of the process. Seen from one path, every run is a run of that
path alone: a call reaches no entry but its own, and the calls and edits of other paths
change nothing.
-/

set_option autoImplicit false

namespace ModSecurityIIS

open Transition

/-- A call with the path it was made for. -/
structure PathCall where
  path : Bytes
  call : RulesCall
  deriving DecidableEq, Repr

/-- `cache` is `g_rulesCache`; `objects` counts the objects made from each file. -/
structure PathsState where
  files : Bytes → List FileVersion
  cache : Bytes → Option (CachedRules LoadedRules)
  objects : Bytes → Nat
  calls : List PathCall

inductive PathsLabel where
  | edit (path : Bytes) (version : FileVersion)
  | start (path : Bytes)
  | run (index : Nat) (ok : Bool)

/-- The state after a section of one call. -/
def PathsState.ran (s : PathsState) (front : List PathCall) (call : PathCall)
    (back : List PathCall) (point : CallPoint) (entry : Option (CachedRules LoadedRules)) :
    PathsState :=
  { s with
    cache := Function.update s.cache call.path entry
    objects := Function.update s.objects call.path (s.objects call.path + 1)
    calls := front ++ { call with call := { call.call with point } } :: back }

inductive PathsStep : PathsState → PathsLabel → PathsState → Prop where
  | edit {s : PathsState} {path : Bytes} {version : FileVersion} :
      version.mtime ∉ (s.files path).map FileVersion.mtime →
      PathsStep s (.edit path version)
        { s with files := Function.update s.files path (s.files path ++ [version]) }
  | start {s : PathsState} {path : Bytes} :
      PathsStep s (.start path)
        { s with
          calls := s.calls ++
            [{ path, call := { since := (s.files path).length - 1, point := .stat } }] }
  | run {s : PathsState} {front back : List PathCall} {call : PathCall} {disk : FileVersion}
      {ok : Bool} {point : CallPoint} {entry : Option (CachedRules LoadedRules)} :
      s.calls = front ++ call :: back → (s.files call.path).getLast? = some disk →
      call.call.point.next disk ((s.files call.path).length - 1) (s.objects call.path)
        (s.cache call.path) ok = some (point, entry) →
      PathsStep s (.run front.length ok) (s.ran front call back point entry)

/-- The runs of a process that has not looked up any rules before. -/
def pathsSystem : System PathsState PathsLabel where
  initial s := ∃ files : Bytes → FileVersion,
    s = { files := fun path => [files path], cache := fun _ => none, objects := fun _ => 0, calls := [] }
  step := PathsStep

/-! ## One path -/

/-- The calls of a path, in order. -/
def callsOf (path : Bytes) (calls : List PathCall) : List RulesCall :=
  calls.filterMap fun call => if call.path = path then some call.call else none

@[simp] theorem callsOf_nil (path : Bytes) : callsOf path [] = [] := rfl

@[simp] theorem callsOf_append (path : Bytes) (first second : List PathCall) :
    callsOf path (first ++ second) = callsOf path first ++ callsOf path second :=
  List.filterMap_append

@[simp] theorem callsOf_cons (path : Bytes) (call : PathCall) (calls : List PathCall) :
    callsOf path (call :: calls) =
      if call.path = path then call.call :: callsOf path calls else callsOf path calls := by
  unfold callsOf
  rw [List.filterMap_cons]
  split <;> simp_all

theorem mem_callsOf {path : Bytes} {call : RulesCall} {calls : List PathCall} :
    call ∈ callsOf path calls ↔ ⟨path, call⟩ ∈ calls := by
  unfold callsOf
  rw [List.mem_filterMap]
  constructor
  · intro found
    obtain ⟨⟨place, inner⟩, member, is⟩ := found
    dsimp only at is
    split at is
    · next same =>
        cases same
        cases is
        exact member
    · cases is
  · exact fun member => ⟨_, member, by simp⟩

/-- The process as one path sees it. -/
def PathsState.only (s : PathsState) (path : Bytes) : RulesState where
  versions := s.files path
  cache := s.cache path
  objects := s.objects path
  calls := callsOf path s.calls

/-- What a step of the process is to a path. -/
def PathsState.OnPath (s : PathsState) (path : Bytes) : PathsLabel → RulesLabel → Prop
  | .edit place version, .edit other => place = path ∧ version = other
  | .start place, .start => place = path
  | .run index ok, .run number other =>
      ok = other ∧ (callsOf path (s.calls.take index)).length = number ∧
        ∃ call, s.calls[index]? = some call ∧ call.path = path
  | _, _ => False

theorem step_only {s next : PathsState} {label : PathsLabel} (step : PathsStep s label next)
    (path : Bytes) :
    next.only path = s.only path ∨
      ∃ own, s.OnPath path label own ∧ RulesStep (s.only path) own (next.only path) := by
  cases step with
  | @edit place version fresh =>
      by_cases same : place = path
      · cases same
        refine .inr ⟨.edit version, ⟨rfl, rfl⟩, ?_⟩
        have edited : RulesStep (s.only path) (.edit version) _ := .edit fresh
        simpa [PathsState.only] using edited
      · left
        simp [PathsState.only, Function.update_of_ne (Ne.symm same)]
  | @start place =>
      by_cases same : place = path
      · cases same
        refine .inr ⟨.start, rfl, ?_⟩
        have started : RulesStep (s.only path) .start _ := .start
        simpa [PathsState.only] using started
      · left
        simp [PathsState.only, same]
  | @run front back call disk ok point entry pool current took =>
      by_cases same : call.path = path
      · cases same
        refine .inr ⟨.run (callsOf call.path front).length ok, ?_, ?_⟩
        · refine ⟨rfl, by rw [pool, List.take_left], call, by simp [pool], rfl⟩
        · have shape : callsOf call.path s.calls =
              callsOf call.path front ++ call.call :: callsOf call.path back := by
            simp [pool]
          have ran : RulesStep (s.only call.path) _ _ := .run shape current took
          simpa [PathsState.only, PathsState.ran, RulesState.ran] using ran
      · left
        simp [PathsState.only, PathsState.ran, Function.update_of_ne (Ne.symm same), pool, same]

/-- A guard on the steps of one path, as a guard on the steps of the process. -/
def OnEachPath (guard : RulesState → RulesLabel → Prop) (s : PathsState) (label : PathsLabel) :
    Prop :=
  ∀ path own, s.OnPath path label own → guard (s.only path) own

/-- Seen from one path, a run of the process is a run of that path alone. -/
theorem only_reaches {guard : RulesState → RulesLabel → Prop} {s : PathsState}
    (reached : pathsSystem.Reaches (OnEachPath guard) s) (path : Bytes) :
    rulesSystem.Reaches guard (s.only path) := by
  apply System.Reaches.refines (fun state => PathsState.only state path) _ _ reached
  · intro state start
    obtain ⟨files, rfl⟩ := start
    exact ⟨files path, rfl⟩
  · intro state label after meets step
    rcases step_only step path with same | ⟨own, on, moved⟩
    · exact .inl same
    · exact .inr ⟨own, meets path own on, moved⟩

/-- What a call of a path comes away with, among all other calls and edits. -/
structure PathsState.Served (s : PathsState) : Prop where
  apart : ∀ path, rulesSystem.Reaches datedEdits (s.only path)
  /-- Rules come from a version of the call's own file. -/
  own : ∀ path call curMtime rules, ⟨path, call⟩ ∈ s.calls →
    call.point = .returned curMtime (some rules) →
    ∃ version, (s.files path)[rules.version]? = some version ∧ version.parsed = .ok rules.rules
  /-- All calls of a path that get rules get the same. -/
  same : ∀ path first second curMtime otherTime rules others, ⟨path, first⟩ ∈ s.calls →
    ⟨path, second⟩ ∈ s.calls → first.point = .returned curMtime (some rules) →
    second.point = .returned otherTime (some others) → rules = others

theorem paths_served {s : PathsState} (reached : pathsSystem.Reaches (OnEachPath datedEdits) s) :
    s.Served := by
  have kept := fun path => rules_kept (only_reaches reached path)
  have holds : ∀ path call curMtime rules, ⟨path, call⟩ ∈ s.calls →
      call.point = .returned curMtime (some rules) → (s.only path).Holds rules := by
    intro path call curMtime rules member returned
    have valid := (kept path).call call (mem_callsOf.mpr member)
    rw [returned] at valid
    exact valid
  constructor
  · exact only_reaches reached
  · intro path call curMtime rules member returned
    obtain ⟨cached, stored, rfl⟩ := holds path call curMtime rules member returned
    exact ((kept path).entry cached stored).parsed
  · intro path first second curMtime otherTime rules others one two returned also
    obtain ⟨cached, stored, rfl⟩ := holds path first curMtime rules one returned
    obtain ⟨other, storedToo, rfl⟩ := holds path second otherTime others two also
    rw [stored] at storedToo
    cases storedToo
    rfl

theorem onEachPath_dated {s : PathsState} {label : PathsLabel}
    (quiet : ∀ path version, label ≠ .edit path version) : OnEachPath datedEdits s label := by
  intro path own on
  cases own with
  | edit version =>
      cases label with
      | edit place other => exact absurd rfl (quiet place other)
      | start place => exact absurd on id
      | run index ok => exact absurd on id
  | start => trivial
  | run index ok => trivial

/-- A process with two rules files, one of which lets responses pass unread. -/
def PathsState.twoFiles : PathsState where
  files path :=
    if path = [1] then [.written 1]
    else
      [{ mtime := (FileVersion.written 2).mtime
         parsed := .ok { secResponseBodyAccess := .falseConfigBoolean } }]
  cache _ := none
  objects _ := 0
  calls := []

theorem paths_served_twoFiles : ∃ s : PathsState, s.Served ∧
    s.cache [1] = some
      { rules := { object := 2, rules := { secResponseBodyAccess := .trueConfigBoolean }, version := 0 }
        mtime := (FileVersion.written 1).mtime } ∧
    s.cache [2] = some
      { rules := { object := 2, rules := { secResponseBodyAccess := .falseConfigBoolean }, version := 0 }
        mtime := (FileVersion.written 2).mtime } := by
  have ran {s next : PathsState} {index : Nat} {ok : Bool}
      (reached : pathsSystem.Reaches (OnEachPath datedEdits) s)
      (step : PathsStep s (.run index ok) next) :
      pathsSystem.Reaches (OnEachPath datedEdits) next :=
    reached.next (onEachPath_dated (by simp)) step
  have began : pathsSystem.Reaches (OnEachPath datedEdits) .twoFiles := by
    refine .start ⟨fun path => if path = [1] then .written 1
      else
        { mtime := (FileVersion.written 2).mtime
          parsed := .ok { secResponseBodyAccess := .falseConfigBoolean } }, ?_⟩
    simp only [PathsState.twoFiles, PathsState.mk.injEq, and_self, and_true]
    funext path
    split <;> rfl
  have first := began.next (onEachPath_dated (by simp)) (@PathsStep.start _ [1])
  have second := first.next (onEachPath_dated (by simp)) (@PathsStep.start _ [2])
  have statFirst := ran second (@PathsStep.run _ [] [_] _ _ true _ _ rfl rfl rfl)
  have statSecond := ran statFirst (@PathsStep.run _ [_] [] _ _ true _ _ rfl rfl rfl)
  have missedFirst := ran statSecond (@PathsStep.run _ [] [_] _ _ true _ _ rfl rfl rfl)
  have missedSecond := ran missedFirst (@PathsStep.run _ [_] [] _ _ true _ _ rfl rfl rfl)
  have loadedFirst := ran missedSecond (@PathsStep.run _ [] [_] _ _ true _ _ rfl rfl rfl)
  have loadedSecond := ran loadedFirst (@PathsStep.run _ [_] [] _ _ true _ _ rfl rfl rfl)
  have keptFirst := ran loadedSecond (@PathsStep.run _ [] [_] _ _ true _ _ rfl rfl rfl)
  have keptSecond := ran keptFirst (@PathsStep.run _ [_] [] _ _ true _ _ rfl rfl rfl)
  exact ⟨_, paths_served keptSecond, rfl, rfl⟩

end ModSecurityIIS
