import Heniek.FallibleRun
import Heniek.GraphValidation
import Heniek.PathOverlay

/-!
Materialization of validated stage outputs into the canonical state that
conditions read. Values are immutable here, so the source's copies are the
values themselves; an object is its members in insertion order. A conflict is
met before any object is created on the way, so a refused write changes nothing.
-/

namespace Heniek.CanonicalState
open ExpressionEvaluation GraphValidation PathOverlay FallibleRun

inductive CanonicalStateCode where
  | unsafePath | pathConflict | invalidBaseState | missingValue | nonJsonValue
  deriving DecidableEq

structure CanonicalStateError where
  path : String
  code : CanonicalStateCode
  message : String
  deriving DecidableEq

/-- A value of unknown type: absent, built of JSON constructors, or anything else. -/
inductive Unknown where
  | undefined
  | json (value : JsonValue)
  | foreign

inductive OutputKind where
  | value | artifact
  deriving DecidableEq

structure FinalizedOutput where
  reference : String
  kind : OutputKind
  value : Unknown := .undefined

structure FinalizedOutputBinding where
  stageId : String
  writes : List String
  outputs : List FinalizedOutput
  validationValid : Bool

abbrev Members := List (String × JsonValue)

def unsafeSegments : List String := ["__proto__", "prototype", "constructor"]

def safeSegment (segment : String) : Bool :=
  decide (segment ≠ "") && decide (segment ≠ ".") && decide (segment ≠ "..") &&
    decide (segment ∉ unsafeSegments) && decide ('\x00' ∉ segment.toList)

def isSafeStatePath (segments : List String) : Bool :=
  decide (segments ≠ []) && segments.all safeSegment

mutual

def isJsonValue : JsonValue → Bool
  | .null => true
  | .bool _ => true
  | .string _ => true
  | .number value => value.finite?.isSome
  | .array items => itemsJson items
  | .object members => membersJson members

def itemsJson : List JsonValue → Bool
  | [] => true
  | item :: items => isJsonValue item && itemsJson items

def memberJson : String × JsonValue → Bool
  | (_, value) => isJsonValue value

def membersJson : List (String × JsonValue) → Bool
  | [] => true
  | member :: members => memberJson member && membersJson members

end

/-- `Object.defineProperty`: in place when the key is there, else at the end. -/
def defineProperty : (members : Members) → (key : String) → (value : JsonValue) → Members
  | [], key, value => [(key, value)]
  | member :: members, key, value =>
    if member.1 = key then (key, value) :: members
    else member :: defineProperty members key value

def property? (members : Members) (key : String) : Option JsonValue :=
  (members.find? fun member => member.1 = key).map Prod.snd

def joined (segments : List String) : String := ".".intercalate segments

/-- The walk and the write of `materializePath`, or the prefix under which nothing can be nested. -/
def place : (members : Members) → (seen segments : List String) → JsonValue →
    Except (List String) Members
  | members, _, [], _ => .ok members
  | members, _, [leaf], value => .ok (defineProperty members leaf value)
  | members, seen, segment :: next :: rest, value =>
    match property? members segment with
    | none => do
        let inner ← place [] (seen ++ [segment]) (next :: rest) value
        .ok (defineProperty members segment (.object inner))
    | some (.object inner) => do
        let inner ← place inner (seen ++ [segment]) (next :: rest) value
        .ok (defineProperty members segment (.object inner))
    | some _ => .error (seen ++ [segment])

structure Materialized where
  root : Members
  errors : List CanonicalStateError := []

def Materialized.report (built : Materialized) (path : String) (code : CanonicalStateCode)
    (message : String) : Materialized :=
  { built with errors := built.errors ++ [⟨path, code, message⟩] }

def materializePath (built : Materialized) (segments : List String) (value : JsonValue) :
    Materialized :=
  if isSafeStatePath segments = false then
    built.report (joined segments) .unsafePath ("rejected unsafe state path " ++ joined segments)
  else
    match place built.root [] segments value with
    | .ok root => { built with root := root }
    | .error conflict =>
      built.report (joined conflict) .pathConflict
        ("cannot nest under non-object at " ++ joined conflict)

def asObjectState (value : Unknown) : Materialized :=
  let refused : Materialized :=
    ⟨[], [⟨"", .invalidBaseState, "baseState must be a JSON object"⟩]⟩
  match value with
  | .undefined => ⟨[], []⟩
  | .foreign => refused
  | .json value =>
    if isJsonValue value then
      match value with
      | .null => ⟨[], []⟩
      | .object members =>
        ⟨members.filter fun member => isSafeStatePath [member.1],
          (members.filter fun member => isSafeStatePath [member.1] = false).map fun member =>
            ⟨member.1, .unsafePath, "rejected unsafe base state key " ++ member.1⟩⟩
      | _ => refused
    else refused

/-- `byReference.get`: of several outputs with one reference the last is kept. -/
def byReference (outputs : List FinalizedOutput) (write : String) : Option FinalizedOutput :=
  outputs.reverse.find? fun output => output.reference = write

def applyWrite (outputs : List FinalizedOutput) (built : Materialized) (write : String) :
    Materialized :=
  match byReference outputs write with
  | none => built
  | some output =>
    match output.kind, output.value with
    | .artifact, _ => built
    | .value, .undefined =>
      built.report write .missingValue ("validated write " ++ write ++ " has no value")
    | .value, .foreign =>
      built.report write .nonJsonValue
        ("validated write " ++ write ++ " is not JSON-representable")
    | .value, .json value =>
      if isJsonValue value then materializePath built (splitDots write) value
      else
        built.report write .nonJsonValue
          ("validated write " ++ write ++ " is not JSON-representable")

def applyBinding (built : Materialized) (binding : FinalizedOutputBinding) : Materialized :=
  if binding.validationValid then binding.writes.foldl (applyWrite binding.outputs) built else built

structure CanonicalCondition where
  state : JsonValue
  errors : List CanonicalStateError

def buildCanonicalConditionState (baseState : Unknown)
    (finalizedOutputs : List FinalizedOutputBinding) : CanonicalCondition :=
  let built := finalizedOutputs.foldl applyBinding (asObjectState baseState)
  ⟨.object built.root, built.errors⟩

def content? (output : FinalizedOutput) : Option JsonValue :=
  match output.kind, output.value with
  | .value, .json value => if isJsonValue value then some value else none
  | _, _ => none

def writeOf (outputs : List FinalizedOutput) (write : String) : Option (String × JsonValue) :=
  ((byReference outputs write).bind content?).map fun value => (write, value)

/-- A write hands a value over, or is refused, or there is no value kept for it. -/
theorem applyWrite_cases (outputs : List FinalizedOutput) (built : Materialized) (write : String) :
    (∃ value, writeOf outputs write = some (write, value) ∧
      applyWrite outputs built write = materializePath built (splitDots write) value) ∨
    writeOf outputs write = none ∧
      ((∃ path code message, applyWrite outputs built write = built.report path code message) ∨
        applyWrite outputs built write = built ∧
          ∀ output, byReference outputs write = some output → output.kind ≠ .value) := by
  unfold applyWrite writeOf
  cases byReference outputs write with
  | none => exact Or.inr ⟨rfl, Or.inr ⟨rfl, nofun⟩⟩
  | some output =>
    obtain ⟨reference, kind, value⟩ := output
    cases kind with
    | artifact =>
      refine Or.inr ⟨rfl, Or.inr ⟨rfl, ?_⟩⟩
      rintro _ ⟨⟩ ⟨⟩
    | value =>
      cases value with
      | undefined => exact Or.inr ⟨rfl, Or.inl ⟨_, _, _, rfl⟩⟩
      | foreign => exact Or.inr ⟨rfl, Or.inl ⟨_, _, _, rfl⟩⟩
      | json value =>
        simp only [Option.bind_some, content?]
        split
        · exact Or.inl ⟨value, rfl, rfl⟩
        · exact Or.inr ⟨rfl, Or.inl ⟨_, _, _, rfl⟩⟩

theorem writeOf_eq_some {outputs : List FinalizedOutput} {write : String}
    {made : String × JsonValue} (found : writeOf outputs write = some made) :
    made.1 = write ∧ isJsonValue made.2 = true ∧ ∃ output,
      byReference outputs write = some output ∧ output.kind = .value ∧
        output.value = .json made.2 := by
  obtain ⟨value, held, rfl⟩ := Option.map_eq_some_iff.mp found
  obtain ⟨output, located, held⟩ := Option.bind_eq_some_iff.mp held
  refine ⟨rfl, ?_⟩
  unfold content? at held
  split at held
  · rename_i carried kind given
    split at held
    · rename_i finite
      cases held
      exact ⟨finite, output, located, kind, given⟩
    · cases held
  · cases held

def valueAt : JsonValue → List String → Option JsonValue
  | value, [] => some value
  | .object members, segment :: rest =>
    (property? members segment).bind fun inner => valueAt inner rest
  | _, _ :: _ => none

def node : JsonValue → Node JsonValue
  | .object _ => .branch
  | value => .leaf value

/-- What a value shows at each path; the order of an object's members is not seen. -/
def view (value : JsonValue) : View String JsonValue := fun path => (valueAt value path).map node

section Paths

variable {members members' : Members} {value : JsonValue}

theorem property?_defineProperty (members : Members) (key segment : String) (value : JsonValue) :
    property? (defineProperty members key value) segment =
      if segment = key then some value else property? members segment := by
  induction members with
  | nil =>
    by_cases same : segment = key
    · simp [defineProperty, property?, same]
    · have other : key ≠ segment := fun eq => same eq.symm
      simp [defineProperty, property?, same, other]
  | cons member members ih =>
    unfold property? at ih ⊢
    by_cases here : member.1 = key
    · by_cases same : segment = key
      · simp [defineProperty, here, same]
      · have other : key ≠ segment := fun eq => same eq.symm
        simp [defineProperty, here, same, other]
    · by_cases same : member.1 = segment
      · have other : segment ≠ key := fun eq => here (same.trans eq)
        rw [defineProperty, if_neg here, if_neg other]
        simp [same]
      · rw [defineProperty, if_neg here]
        simpa [same] using ih

theorem valueAt_object (members : Members) (segment : String) (rest : List String) :
    valueAt (.object members) (segment :: rest) =
      (property? members segment).bind fun inner => valueAt inner rest := rfl

theorem valueAt_append (value : JsonValue) (path rest : List String) :
    valueAt value (path ++ rest) = (valueAt value path).bind fun inner => valueAt inner rest := by
  induction path generalizing value with
  | nil => simp [valueAt]
  | cons segment path ih =>
    cases value with
    | object members =>
      rw [List.cons_append, valueAt_object, valueAt_object]
      cases property? members segment with
      | none => rfl
      | some inner => exact ih inner
    | null => rfl
    | bool => rfl
    | number => rfl
    | string => rfl
    | array => rfl

variable {seen segments : List String} {segment : String}

theorem place_cons_eq_ok {rest : List String} {next : String}
    (placed : place members seen (segment :: next :: rest) value = .ok members') :
    ∃ old inner, (property? members segment = none ∧ old = [] ∨
        property? members segment = some (.object old)) ∧
      place old (seen ++ [segment]) (next :: rest) value = .ok inner ∧
      members' = defineProperty members segment (.object inner) := by
  rw [place] at placed
  split at placed
  · rename_i missing
    obtain ⟨inner, walked, done⟩ := bind_eq_ok.mp placed
    cases done
    exact ⟨[], inner, Or.inl ⟨missing, rfl⟩, walked, rfl⟩
  · rename_i old present
    obtain ⟨inner, walked, done⟩ := bind_eq_ok.mp placed
    cases done
    exact ⟨old, inner, Or.inr present, walked, rfl⟩
  · cases placed

theorem valueAt_place (nonempty : segments ≠ [])
    (placed : place members seen segments value = .ok members') (path : List String) :
    (segments <+: path →
      valueAt (.object members') path = valueAt value (path.drop segments.length)) ∧
    (path <+: segments → ¬ segments <+: path →
      ∃ inner, valueAt (.object members') path = some (.object inner)) ∧
    (Incomparable segments path →
      valueAt (.object members') path = valueAt (.object members) path) := by
  induction segments generalizing members members' seen path with
  | nil => exact absurd rfl nonempty
  | cons segment rest ih =>
    cases path with
    | nil =>
      exact ⟨fun below => absurd (List.prefix_nil.mp below) nofun,
        fun _ _ => ⟨members', rfl⟩, fun apart => absurd List.nil_prefix apart.2⟩
    | cons key path =>
      cases rest with
      | nil =>
        cases placed
        rw [valueAt_object, property?_defineProperty]
        by_cases same : key = segment
        · subst same
          refine ⟨fun _ => by simp, fun _ proper => ?_, fun apart => ?_⟩
          · exact absurd (by simp) proper
          · exact absurd (by simp) apart.1
        · have other : ¬ segment = key := fun eq => same eq.symm
          refine ⟨fun below => ?_, fun above _ => ?_, fun _ => by rw [if_neg same]; rfl⟩
          · exact absurd (List.cons_prefix_cons.mp below).1 other
          · exact absurd (List.cons_prefix_cons.mp above).1 same
      | cons next rest =>
        obtain ⟨old, inner, entered, walked, rfl⟩ := place_cons_eq_ok placed
        rw [valueAt_object, property?_defineProperty]
        by_cases same : key = segment
        · subst same
          obtain ⟨below, above, beside⟩ := ih nofun walked path
          rw [if_pos rfl, Option.bind_some, valueAt_object, List.cons_prefix_cons,
            List.cons_prefix_cons]
          refine ⟨fun under => below under.2,
            fun reaches proper => above reaches.2 fun under => proper ⟨rfl, under⟩, fun apart => ?_⟩
          have inside : Incomparable (next :: rest) path := by
            constructor
            · exact fun under => apart.1 (List.cons_prefix_cons.mpr ⟨rfl, under⟩)
            · exact fun reaches => apart.2 (List.cons_prefix_cons.mpr ⟨rfl, reaches⟩)
          rw [beside inside]
          rcases entered with ⟨missing, rfl⟩ | present
          · rw [missing]
            cases path with
            | nil => exact absurd List.nil_prefix inside.2
            | cons => rfl
          · rw [present, Option.bind_some]
        · have other : ¬ segment = key := fun eq => same eq.symm
          refine ⟨fun below => ?_, fun above _ => ?_, fun _ => by rw [if_neg same]; rfl⟩
          · exact absurd (List.cons_prefix_cons.mp below).1 other
          · exact absurd (List.cons_prefix_cons.mp above).1 same

theorem view_object (members : Members) (segment : String) (rest : List String) :
    view (.object members) (segment :: rest) =
      (property? members segment).bind fun inner => view inner rest := by
  rw [view, valueAt_object]
  cases property? members segment <;> rfl

theorem blocked_cons {next : String} {rest : List String} :
    Blocked (view (.object members)) (segment :: next :: rest) ↔
      ∃ inner, property? members segment = some inner ∧
        ((∃ leaf, view inner [] = some (.leaf leaf)) ∨ Blocked (view inner) (next :: rest)) := by
  constructor
  · rintro ⟨above, leaf, nonempty, reaches, different, shown⟩
    rcases List.prefix_cons_iff.mp reaches with empty | ⟨tail, rfl, shorter⟩
    · exact absurd empty nonempty
    rw [view_object] at shown
    cases present : property? members segment with
    | none => simp [present] at shown
    | some inner =>
      rw [present] at shown
      refine ⟨inner, rfl, ?_⟩
      cases tail with
      | nil => exact Or.inl ⟨leaf, shown⟩
      | cons key tail =>
        exact Or.inr ⟨key :: tail, leaf, nofun, shorter,
          fun same => different (congrArg (List.cons segment) same), shown⟩
  · rintro ⟨inner, present, ⟨leaf, shown⟩ | ⟨above, leaf, nonempty, reaches, different, shown⟩⟩
    · refine ⟨[segment], leaf, nofun, ⟨next :: rest, rfl⟩, by simp, ?_⟩
      rw [view_object, present, Option.bind_some, shown]
    · refine ⟨segment :: above, leaf, nofun, List.cons_prefix_cons.mpr ⟨rfl, reaches⟩,
        fun same => different (List.cons.inj same).2, ?_⟩
      rw [view_object, present, Option.bind_some, shown]

theorem not_blocked_singleton {view : View String JsonValue} : ¬ Blocked view [segment] := by
  rintro ⟨above, leaf, nonempty, reaches, different, _⟩
  rcases List.prefix_cons_iff.mp reaches with empty | ⟨tail, rfl, shorter⟩
  · exact nonempty empty
  · rw [List.prefix_nil.mp shorter] at different
    exact different rfl

theorem not_blocked_empty (path : List String) : ¬ Blocked (view (.object [])) path := by
  rintro ⟨above, leaf, nonempty, _, _, shown⟩
  cases above with
  | nil => exact nonempty rfl
  | cons segment rest =>
    cases shown

theorem not_blocked_of_place (placed : place members seen segments value = .ok members') :
    ¬ Blocked (view (.object members)) segments := by
  induction segments generalizing members members' seen with
  | nil =>
    rintro ⟨above, leaf, nonempty, reaches, _⟩
    exact nonempty (List.prefix_nil.mp reaches)
  | cons segment rest ih =>
    cases rest with
    | nil => exact not_blocked_singleton
    | cons next rest =>
      obtain ⟨old, inner, entered, walked, _⟩ := place_cons_eq_ok placed
      rw [blocked_cons]
      rintro ⟨found, present, obstacle⟩
      rcases entered with ⟨missing, _⟩ | there
      · rw [missing] at present
        cases present
      · rw [there] at present
        cases present
        rcases obstacle with ⟨leaf, shown⟩ | below
        · cases shown
        · exact ih walked below

theorem exists_place (seen : List String) (value : JsonValue)
    (free : ¬ Blocked (view (.object members)) segments) :
    ∃ members', place members seen segments value = .ok members' := by
  induction segments generalizing members seen with
  | nil => exact ⟨members, by rw [place]⟩
  | cons segment rest ih =>
    cases rest with
    | nil => exact ⟨_, by rw [place]⟩
    | cons next rest =>
      rw [blocked_cons] at free
      rw [place]
      cases present : property? members segment with
      | none =>
        obtain ⟨inner, walked⟩ := ih (seen ++ [segment]) (not_blocked_empty (next :: rest))
        exact ⟨_, by simp only [walked]; rfl⟩
      | some found =>
        cases found with
        | object old =>
          obtain ⟨inner, walked⟩ := ih (seen ++ [segment])
            fun below => free ⟨_, present, Or.inr below⟩
          exact ⟨_, by simp only [walked]; rfl⟩
        | null => exact absurd ⟨_, present, Or.inl ⟨_, rfl⟩⟩ free
        | bool => exact absurd ⟨_, present, Or.inl ⟨_, rfl⟩⟩ free
        | number => exact absurd ⟨_, present, Or.inl ⟨_, rfl⟩⟩ free
        | string => exact absurd ⟨_, present, Or.inl ⟨_, rfl⟩⟩ free
        | array => exact absurd ⟨_, present, Or.inl ⟨_, rfl⟩⟩ free

theorem view_place (nonempty : segments ≠ [])
    (placed : place members seen segments value = .ok members') :
    view (.object members') = overlay (view (.object members)) (view value) segments := by
  funext path
  obtain ⟨below, above, beside⟩ := valueAt_place nonempty placed path
  by_cases under : segments <+: path
  · rw [overlay_below under, view, below under, view]
  · by_cases reaches : path <+: segments
    · obtain ⟨inner, found⟩ := above reaches under
      rw [overlay_above reaches under, view, found]
      rfl
    · rw [overlay_beside ⟨under, reaches⟩, view, beside ⟨under, reaches⟩, view]

end Paths

end Heniek.CanonicalState
