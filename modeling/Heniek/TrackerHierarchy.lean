import Heniek.TaskIngestion
import Mathlib.Data.List.Dedup

/-!
The tracker edges that are recorded for a root work item. An ingestion looks for a cycle
among the edges it brings, and records them beside those of the ingestions before it.
-/

namespace Heniek.TrackerHierarchy
open KeyedTable CanonicalJson FallibleRun TaskSourceStore TaskIngestion DepthFirst Relation

def Parent (edges : List TrackerEdge) (a b : String) : Prop := ⟨a, b⟩ ∈ edges

section Brought

variable {edges : List TrackerEdge} {input : TaskSourceIngestionInput} {recordedAt : String}
  {hierarchy : TaskHierarchy}

theorem arrow_iff {a b : String} : Arrow (childrenOf edges) a b ↔ Parent edges a b := by
  simp only [Arrow, childrenOf, List.mem_map, List.mem_filter, decide_eq_true_eq]
  constructor
  · rintro ⟨edge, ⟨listed, rfl⟩, rfl⟩
    exact listed
  · intro listed
    exact ⟨⟨a, b⟩, ⟨listed, rfl⟩, rfl⟩

theorem mem_parentsOf {a : String} : a ∈ parentsOf edges ↔ ∃ b, Parent edges a b := by
  simp only [parentsOf, List.mem_reverse, List.mem_dedup, List.mem_map]
  constructor
  · rintro ⟨edge, listed, rfl⟩
    exact ⟨edge.childSourceWorkItemId, listed⟩
  · rintro ⟨b, listed⟩
    exact ⟨⟨a, b⟩, listed, rfl⟩

theorem acyclic_of_search {fuel : Nat} {marks : Marks String}
    (found : search (childrenOf edges) fuel (parentsOf edges) = some marks) :
    Acyclic (Parent edges) := by
  intro a cycle
  have arrows : TransGen (Arrow (childrenOf edges)) a a :=
    TransGen.mono (fun _ _ => arrow_iff.mpr) _ _ cycle
  obtain ⟨b, first, _⟩ := TransGen.head'_iff.mp cycle
  exact no_cycle_of_search found (mem_parentsOf.mpr ⟨b, first⟩) arrows

theorem checkEdges_ok {seenEdges : List String} (checked : checkEdges seenEdges edges = .ok ()) :
    ∀ edge ∈ edges, edge.parentSourceWorkItemId ≠ edge.childSourceWorkItemId := by
  induction edges generalizing seenEdges with
  | nil => simp
  | cons edge edges ih =>
    rw [checkEdges] at checked
    split_ifs at checked with loop seen
    rw [List.forall_mem_cons]
    exact ⟨loop, ih checked⟩

theorem hierarchyFor_ok (built : hierarchyFor input recordedAt = .ok hierarchy) :
    checkEdges [] input.trackerEdges = .ok () ∧ Acyclic (Parent input.trackerEdges) ∧
      hierarchy =
        ⟨input.sourceWorkItemId, input.trackerEdges, input.executionMappings, recordedAt⟩ := by
  obtain ⟨_, checked, built⟩ := bind_eq_ok.mp built
  split at built
  · cases built
  · rename_i marks found
    exact ⟨checked, acyclic_of_search found, (Except.ok.inj built).symm⟩

end Brought

theorem mem_trackerEdgesOf {db : Database} {root : String} {edge : TrackerEdge} :
    edge ∈ db.trackerEdgesOf root ↔ (root, edge) ∈ db.trackerEdges.keys := by
  simp only [Database.trackerEdgesOf, List.mem_insertionSort, List.mem_map, List.mem_filter,
    decide_eq_true_eq, Table.keys]
  constructor
  · rintro ⟨row, ⟨stored, rfl⟩, rfl⟩
    exact ⟨row, stored, rfl⟩
  · rintro ⟨row, stored, same⟩
    rw [Prod.mk.injEq] at same
    exact ⟨row, ⟨stored, same.1⟩, same.2⟩

theorem mem_keys_foldl_insertOrIgnore {α κ : Type} [DecidableEq κ] {key : α → κ} (t : Table key)
    (rows : List α) (k : κ) :
    k ∈ (rows.foldl Table.insertOrIgnore t).keys ↔ k ∈ t.keys ∨ k ∈ rows.map key := by
  induction rows generalizing t with
  | nil => simp
  | cons row rows ih =>
    rw [List.foldl_cons, ih, Table.mem_keys_insertOrIgnore, List.map_cons, List.mem_cons, or_assoc]

theorem mem_trackerEdgesOf_wrote {db after : Database} {record : RecordTaskContextInput}
    (wrote : Wrote db record after) {root : String} {edge : TrackerEdge} :
    edge ∈ after.trackerEdgesOf root ↔ edge ∈ db.trackerEdgesOf root ∨
      root = record.hierarchy.rootSourceWorkItemId ∧ edge ∈ record.hierarchy.trackerEdges ∧
        edge.parentSourceWorkItemId ≠ edge.childSourceWorkItemId := by
  rw [mem_trackerEdgesOf, mem_trackerEdgesOf, wrote.trackerEdges, mem_keys_foldl_insertOrIgnore]
  refine or_congr_right ?_
  simp only [edgeRows, List.map_map, List.mem_map, List.mem_filter, decide_eq_true_eq,
    Function.comp_apply, Prod.mk.injEq]
  constructor
  · rintro ⟨listed, ⟨stored, proper⟩, rfl, rfl⟩
    exact ⟨rfl, stored, proper⟩
  · rintro ⟨rfl, stored, proper⟩
    exact ⟨edge, ⟨stored, proper⟩, rfl, rfl⟩

section Runs

/-- The hierarchy of a root has no cycle and has every edge that was accepted for it. -/
structure Sound (accepted : List Call) (db : Database) (root : String) : Prop where
  acyclic : Acyclic (Parent (db.trackerEdgesOf root))
  proper : ∀ edge ∈ db.trackerEdgesOf root,
    edge.parentSourceWorkItemId ≠ edge.childSourceWorkItemId
  complete : ∀ call ∈ accepted, call.input.sourceWorkItemId = root →
    call.input.trackerEdges ⊆ db.trackerEdgesOf root

/-- No recorded edge is closed to a cycle by what is brought, and a repeated observation brings
nothing that is not recorded. -/
def ClosesNothing (db : Database) (call : Call) : Prop :=
  let recorded := db.trackerEdgesOf call.input.sourceWorkItemId
  let brought := call.input.trackerEdges
  if (db.findObservation call.input.sourceUri call.input.observedVersion).isSome then
    brought ⊆ recorded
  else
    ∀ edge ∈ recorded, ¬ ReflTransGen (Union (Parent recorded) (Parent brought))
      edge.childSourceWorkItemId edge.parentSourceWorkItemId

theorem Sound.of_replay {accepted : List Call} {db : Database} {call : Call}
    (sound : ∀ root, Sound accepted db root)
    (recorded : call.input.trackerEdges ⊆ db.trackerEdgesOf call.input.sourceWorkItemId)
    (root : String) : Sound (accepted ++ [call]) db root := by
  refine ⟨(sound root).acyclic, (sound root).proper, ?_⟩
  intro other listed rooted
  rcases List.mem_append.mp listed with earlier | this
  · exact (sound root).complete other earlier rooted
  · rw [List.mem_singleton] at this
    subst this
    exact rooted ▸ recorded

variable [NumberText] [TaskIngestion.Sha256]

theorem Sound.of_wrote {accepted : List Call} {db after : Database} {call : Call}
    {record : RecordTaskContextInput} (sound : ∀ root, Sound accepted db root)
    (observed : Observed db call.surroundings call.input record) (wrote : Wrote db record after)
    (closes : ∀ edge ∈ db.trackerEdgesOf call.input.sourceWorkItemId, ¬ ReflTransGen
      (Union (Parent (db.trackerEdgesOf call.input.sourceWorkItemId))
        (Parent call.input.trackerEdges))
      edge.childSourceWorkItemId edge.parentSourceWorkItemId) (root : String) :
    Sound (accepted ++ [call]) after root := by
  obtain ⟨checked, brought, built⟩ := hierarchyFor_ok observed.hierarchy
  have proper := checkEdges_ok checked
  have edges : ∀ edge, edge ∈ after.trackerEdgesOf root ↔ edge ∈ db.trackerEdgesOf root ∨
      root = call.input.sourceWorkItemId ∧ edge ∈ call.input.trackerEdges := by
    intro edge
    rw [mem_trackerEdgesOf_wrote wrote, built]
    refine or_congr_right (and_congr_right fun _ => ?_)
    exact ⟨And.left, fun listed => ⟨listed, proper edge listed⟩⟩
  refine ⟨?_, ?_, ?_⟩
  · by_cases here : root = call.input.sourceWorkItemId
    · subst here
      have union := acyclic_union brought fun a b arrow => closes ⟨a, b⟩ arrow
      exact union.mono fun a b arrow => ((edges ⟨a, b⟩).mp arrow).imp id And.right
    · refine (sound root).acyclic.mono fun a b arrow => ?_
      exact ((edges ⟨a, b⟩).mp arrow).resolve_right fun other => here other.1
  · intro edge listed
    rcases (edges edge).mp listed with recorded | ⟨_, new⟩
    · exact (sound root).proper edge recorded
    · exact proper edge new
  · intro other listed rooted edge new
    rw [edges]
    rcases List.mem_append.mp listed with earlier | this
    · exact .inl ((sound root).complete other earlier rooted new)
    · rw [List.mem_singleton] at this
      subst this
      exact .inr ⟨rooted.symm, new⟩

/-- In a run of ingestions none of which closes a cycle, every hierarchy is sound. -/
theorem hierarchy_sound {accepted : List Call} {db : Database}
    (run : Ingested ClosesNothing accepted db) (root : String) : Sound accepted db root := by
  induction run generalizing root with
  | start =>
    refine ⟨?_, by simp [Database.trackerEdgesOf, Table.empty], by simp⟩
    intro a cycle
    obtain ⟨b, first, _⟩ := TransGen.head'_iff.mp cycle
    simp [Parent, Database.trackerEdgesOf, Table.empty] at first
  | accepted run admitted loaded ih =>
    rcases load_ok loaded with ⟨observation, found, _, rfl⟩ | ⟨unobserved, record, observed, wrote⟩
    · rw [ClosesNothing, found] at admitted
      exact Sound.of_replay ih (by simpa using admitted) root
    · rw [ClosesNothing, unobserved] at admitted
      exact Sound.of_wrote ih observed wrote (by simpa using admitted) root
  | rejected run refused ih => exact ih root

end Runs

section Instances

attribute [local instance] integerTexts sampleDigest

def downward : Call := sampleCall "1" "o" [⟨"a", "b"⟩]

def upward : Call := sampleCall "2" "o" [⟨"b", "a"⟩]

theorem recorded_edges :
    accepts {} downward = true ∧ accepts (afterwards {} downward) downward = true ∧
      ((afterwards {} downward).findObservation "https://host/issues/1" "1").isSome = true ∧
      (afterwards {} downward).trackerEdgesOf "a" = [⟨"a", "b"⟩] ∧
      accepts (afterwards {} downward) upward = true ∧
      (afterwards (afterwards {} downward) upward).trackerEdgesOf "a" =
        [⟨"a", "b"⟩, ⟨"b", "a"⟩] := by
  decide +kernel

theorem hierarchy_sound_repeated :
    Sound [downward, downward] (afterwards (afterwards {} downward) downward) "a" := by
  obtain ⟨new, again, observed, edges, _⟩ := recorded_edges
  have fresh : ClosesNothing {} downward := by
    simp [ClosesNothing, Database.findObservation, Database.trackerEdgesOf, Table.empty]
  have repeated : ClosesNothing (afterwards {} downward) downward := by
    rw [ClosesNothing]
    have uri : downward.input.sourceUri = "https://host/issues/1" := rfl
    have version : downward.input.observedVersion = "1" := rfl
    have item : downward.input.sourceWorkItemId = "a" := rfl
    have brought : downward.input.trackerEdges = [⟨"a", "b"⟩] := rfl
    simp only [uri, version, item, brought, observed, edges, if_true]
    exact List.Subset.refl _
  exact hierarchy_sound ((Ingested.start.next fresh new).next repeated again) "a"

/-- Two versions of an issue that turn one edge around are both accepted. -/
theorem hierarchy_cyclic :
    ¬ ∀ (accepted : List Call) (db : Database), Ingested (fun _ _ => True) accepted db →
      ∀ root, Sound accepted db root := by
  intro claim
  obtain ⟨new, _, _, _, turned, edges⟩ := recorded_edges
  have first : Ingested (fun _ _ => True) [downward] (afterwards {} downward) :=
    Ingested.start.next trivial new
  have acyclic := (claim _ _ (first.next trivial turned) "a").acyclic
  rw [edges] at acyclic
  have down : Parent [⟨"a", "b"⟩, ⟨"b", "a"⟩] "a" "b" := by simp [Parent]
  have up : Parent [⟨"a", "b"⟩, ⟨"b", "a"⟩] "b" "a" := by simp [Parent]
  exact acyclic "a" (.tail (.single down) up)

end Instances

end Heniek.TrackerHierarchy
