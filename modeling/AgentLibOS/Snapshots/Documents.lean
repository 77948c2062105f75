import AgentLibOS.Snapshots.Remap
import Mathlib.Data.List.Forall2

namespace AgentLibOS.Snapshots
open Capability Library.Run

/-! ## Two documents that differ in some places -/

namespace Document

abbrev Relation := Value → Value → Prop

def anything : Relation := fun _ _ => True

/-- Lists of one length, item by item. -/
def Itemwise (relation : Relation) (before after : Value) : Prop :=
  ∃ items items', before = .list items ∧ after = .list items' ∧ List.Forall₂ relation items items'

/-- Objects of the same names in the same order, value by value. -/
def Entrywise (relation : Relation) (before after : Value) : Prop :=
  ∃ entries entries', before = .dict entries ∧ after = .dict entries' ∧
    List.Forall₂ (fun entry entry' => entry'.1 = entry.1 ∧ relation entry.2 entry'.2) entries entries'

/-- An entry of an object that may differ, and how. -/
abbrev Part := String × Relation

def OutsideEntries (parts : List Part) (entries entries' : Dict) : Prop :=
  ∀ key, entries'.lookup key = entries.lookup key ∨
    ∃ part ∈ parts, part.1 = key ∧ part.2 (entries.get key) (entries'.get key)

/-- Objects that agree but for some entries. -/
def Outside (parts : List Part) (before after : Value) : Prop :=
  ∃ entries entries', before = .dict entries ∧ after = .dict entries' ∧
    OutsideEntries parts entries entries'

theorem OutsideEntries.refl (parts : List Part) (entries : Dict) :
    OutsideEntries parts entries entries := fun _ => .inl rfl

theorem setEntry_get (entries : Dict) (key other : String) (value : Value) :
    Dict.get (setEntry entries key value) other = if other = key then value else entries.get other := by
  rw [Dict.get, setEntry_lookup]
  split
  · rfl
  · rfl

/-- Writing one of the entries, after others were written. -/
theorem OutsideEntries.setEntry {parts : List Part} {entries entries' : Dict} {part : Part}
    {value : Value} (outside : OutsideEntries parts entries entries') (inside : part ∈ parts)
    (related : part.2 (entries.get part.1) value) :
    OutsideEntries parts entries (setEntry entries' part.1 value) := by
  intro key
  by_cases same : key = part.1
  · subst same
    exact .inr ⟨part, inside, rfl, by rwa [setEntry_get, if_pos rfl]⟩
  · rw [setEntry_lookup, setEntry_get, if_neg same, if_neg same]
    exact outside key

theorem OutsideEntries.applyEntry {parts : List Part} {entries entries' : Dict} {key : String}
    (selected : IdentityMap) (outside : OutsideEntries parts entries entries')
    (inside : (key, anything) ∈ parts) :
    OutsideEntries parts entries (SnapshotRemapper.applyEntry selected entries' key) := by
  unfold SnapshotRemapper.applyEntry
  split
  · exact outside.setEntry inside trivial
  · exact outside

end Document

/-! ## What the rewriting of a document keeps -/

namespace SnapshotRemapper
open Document

def skillParts : List Part := loadedSkillFields.map fun field => (field, Entrywise anything)

def rootParts : List Part := [("oid", anything), ("capability_id", anything)]

def viewParts : List Part := [("owner_pid", anything), ("roots", Itemwise (Outside rootParts))]

theorem rewriteIds_kept {selected : IdentityMap} {complaint : String} {ids ids' : List Value}
    (done : rewriteIds selected complaint ids = .ok ids') :
    Itemwise anything (.list ids) (.list ids') := by
  obtain ⟨_, _, last⟩ := bind_eq_ok.mp done
  cases last
  refine ⟨ids, _, rfl, rfl, ?_⟩
  rw [List.forall₂_map_right_iff]
  exact List.forall₂_same.mpr fun _ _ => trivial

theorem rewriteStringMapping_kept {selected : IdentityMap} {complaint : String}
    {entries entries' : Dict} (done : rewriteStringMapping selected complaint entries = .ok entries') :
    Entrywise anything (.dict entries) (.dict entries') := by
  obtain ⟨_, _, last⟩ := bind_eq_ok.mp done
  cases last
  refine ⟨entries, _, rfl, rfl, ?_⟩
  rw [List.forall₂_map_right_iff]
  exact List.forall₂_same.mpr fun _ _ => ⟨rfl, trivial⟩

/-- The fields that are still to be rewritten are as the record has them. -/
theorem rewriteSkillFields_kept {toolMap : IdentityMap} {loaded : Dict} (fields : List String)
    (distinct : fields.Nodup) (known : ∀ field ∈ fields, field ∈ loadedSkillFields)
    {current result : Dict} (outside : OutsideEntries skillParts loaded current)
    (ahead : ∀ field ∈ fields, current.lookup field = loaded.lookup field)
    (done : fields.foldlM (rewriteSkillField toolMap) current = .ok result) :
    OutsideEntries skillParts loaded result := by
  induction fields generalizing current with
  | nil =>
      cases done
      exact outside
  | cons field fields ih =>
      rw [List.foldlM_cons] at done
      obtain ⟨next, rewritten, rest⟩ := bind_eq_ok.mp done
      obtain ⟨fresh, distinct⟩ := List.nodup_cons.mp distinct
      have same : current.get field = loaded.get field :=
        congrArg (Option.getD · Value.none) (ahead field List.mem_cons_self)
      have later : ∀ other ∈ fields, other ∈ loadedSkillFields :=
        fun other inside => known other (List.mem_cons_of_mem _ inside)
      have behind : ∀ other ∈ fields, current.lookup other = loaded.lookup other :=
        fun other inside => ahead other (List.mem_cons_of_mem _ inside)
      unfold rewriteSkillField at rewritten
      rw [same] at rewritten
      cases value : loaded.get field with
      | none =>
          rw [value] at rewritten
          cases rewritten
          exact ih distinct later outside behind rest
      | dict identifiers =>
          rw [value] at rewritten
          obtain ⟨tools, mapping, last⟩ := bind_eq_ok.mp rewritten
          cases last
          have part : (field, Entrywise anything) ∈ skillParts :=
            List.mem_map_of_mem (known field List.mem_cons_self)
          have related : Entrywise anything (loaded.get field) (.dict tools) :=
            value ▸ rewriteStringMapping_kept mapping
          refine ih distinct later (outside.setEntry part related) ?_ rest
          intro other inside
          have different : other ≠ field := fun equal => fresh (equal ▸ inside)
          rw [setEntry_lookup, if_neg different]
          exact behind other inside
      | bool _ | int _ | float _ | str _ | list _ =>
          rw [value] at rewritten
          cases rewritten

theorem rewriteLoadedSkill_kept {toolMap : IdentityMap} {skill skill' : String × Value}
    (done : rewriteLoadedSkill toolMap skill = .ok skill') :
    skill'.1 = skill.1 ∧ Outside skillParts skill.2 skill'.2 := by
  obtain ⟨id, value⟩ := skill
  cases value with
  | dict loaded =>
      obtain ⟨rewritten, fields, last⟩ := bind_eq_ok.mp done
      cases last
      have outside := rewriteSkillFields_kept loadedSkillFields (by decide) (fun _ inside => inside)
        (OutsideEntries.refl skillParts loaded) (fun _ _ => rfl) fields
      exact ⟨rfl, loaded, rewritten, rfl, rfl, outside⟩
  | none | bool _ | int _ | float _ | str _ | list _ => cases done

theorem rewriteLoadedSkills_kept {toolMap : IdentityMap} {skills skills' : Dict}
    (done : skills.mapM (rewriteLoadedSkill toolMap) = .ok skills') :
    Entrywise (Outside skillParts) (.dict skills) (.dict skills') :=
  ⟨skills, skills', rfl, rfl,
    (mapM_eq_ok.mp done).imp fun _ _ rewritten => rewriteLoadedSkill_kept rewritten⟩

theorem applyEntry_lookup (selected : IdentityMap) (entries : Dict) {key other : String}
    (different : other ≠ key) : (applyEntry selected entries key).lookup other = entries.lookup other := by
  unfold applyEntry
  split
  · rw [setEntry_lookup, if_neg different]
  · rfl

theorem rewriteRoot_kept (identities : SnapshotIdentityMap) {root : Value}
    (shape : isObject root = true) : Outside rootParts root (rewriteRoot identities root) := by
  cases root with
  | dict root =>
      refine ⟨root, _, rfl, rfl, ?_⟩
      apply OutsideEntries.applyEntry
      · apply OutsideEntries.applyEntry
        · exact OutsideEntries.refl rootParts root
        · exact List.mem_cons_self
      · exact List.mem_cons_of_mem _ List.mem_cons_self
  | none | bool _ | int _ | float _ | str _ | list _ => cases shape

theorem rewriteMemoryView_kept {identities : SnapshotIdentityMap} {view view' : Dict}
    (done : rewriteMemoryView identities view = .ok view') :
    Outside viewParts (.dict view) (.dict view') := by
  refine ⟨view, view', rfl, rfl, ?_⟩
  have owned : OutsideEntries viewParts view (applyEntry (identities .pids) view "owner_pid") :=
    (OutsideEntries.refl viewParts view).applyEntry _ List.mem_cons_self
  have same := applyEntry_lookup (identities .pids) view (by decide : "roots" ≠ "owner_pid")
  simp only [rewriteMemoryView, same] at done
  cases roots : view.lookup "roots" with
  | none =>
      rw [roots] at done
      cases done
      exact owned
  | some value =>
      rw [roots] at done
      cases value with
      | list items =>
          obtain ⟨_, shapes, last⟩ := bind_eq_ok.mp done
          cases last
          have part : ("roots", Itemwise (Outside rootParts)) ∈ viewParts :=
            List.mem_cons_of_mem _ List.mem_cons_self
          have before : view.get "roots" = .list items := by rw [Dict.get, roots]; rfl
          refine owned.setEntry part ?_
          refine ⟨items, _, before, rfl, ?_⟩
          rw [List.forall₂_map_right_iff]
          have objects := List.all_eq_true.mp (ensure_ok.mp shapes)
          exact List.forall₂_same.mpr fun root inside => rewriteRoot_kept identities (objects root inside)
      | none | bool _ | int _ | float _ | str _ | dict _ => cases done

theorem rewriteProvenance_kept {objectMap : IdentityMap} {provenance provenance' : Dict}
    (done : rewriteProvenance objectMap provenance = .ok provenance') :
    Outside [("parent_oids", anything)] (.dict provenance) (.dict provenance') := by
  refine ⟨provenance, provenance', rfl, rfl, ?_⟩
  unfold rewriteProvenance at done
  cases parents : parentOids provenance with
  | list oids =>
      rw [parents] at done
      obtain ⟨_, _, last⟩ := bind_eq_ok.mp done
      cases last
      have part : ("parent_oids", anything) ∈ [(("parent_oids", anything) : Part)] :=
        List.mem_cons_self
      exact (OutsideEntries.refl _ provenance).setEntry part trivial
  | none | bool _ | int _ | float _ | str _ | dict _ =>
      rw [parents] at done
      cases done

/-- A resource whose kind and scope stay, and of its body what stands before the identity. -/
def ResourceKept (source target : Value) : Prop :=
  target = source ∨ ∃ text pattern entry identity, source = .str text ∧
    ResourceAuthority.parse text false = .ok pattern ∧ entry ∈ resourceMaps ∧
    pattern.kind = entry.1.toList ∧
    target = .str (resourceWithBody pattern (entry.2.1.toList ++ identity))

theorem parseCapabilityResource_ok {field : String} {resource : Value} {pattern : ResourcePattern}
    (done : parseCapabilityResource field resource = .ok pattern) :
    ∃ text, resource = .str text ∧ ResourceAuthority.parse text false = .ok pattern ∧
      pattern.raw = text.toList := by
  cases resource with
  | str text =>
      simp only [parseCapabilityResource] at done
      cases parsed : ResourceAuthority.parse text false with
      | error denied =>
          rw [parsed] at done
          cases done
      | ok found =>
          rw [parsed] at done
          by_cases canonical : found.raw = text.toList
          · simp only [if_pos canonical] at done
            cases done
            exact ⟨text, rfl, parsed, canonical⟩
          · simp only [if_neg canonical] at done
            cases done
  | none | bool _ | int _ | float _ | list _ | dict _ => cases done

theorem expectedResource_kept {identities : SnapshotIdentityMap} {field : String}
    {resource : Value} {result : String}
    (done : expectedResource identities field resource = .ok result) :
    ResourceKept resource (.str result) := by
  obtain ⟨pattern, parsed, rest⟩ := bind_eq_ok.mp done
  obtain ⟨text, rfl, parse, canonical⟩ := parseCapabilityResource_ok parsed
  have same : String.ofList pattern.raw = text := by rw [canonical, String.ofList_toList]
  cases selected : resourceMap? pattern with
  | none =>
      rw [selected] at rest
      cases rest
      exact .inl (by rw [same])
  | some entry =>
      obtain ⟨kind, start, map⟩ := entry
      have inside := List.mem_of_find?_eq_some selected
      have chosen := List.find?_some selected
      rw [selected] at rest
      simp only [] at rest
      cases target : (identities map).get? (String.ofList (pattern.body.drop start.length)) with
      | none =>
          rw [target] at rest
          cases rest
          exact .inl (by rw [same])
      | some id =>
          rw [target] at rest
          cases rest
          exact .inr ⟨text, pattern, (kind, start, map), id.toList, rfl, parse, inside,
            (of_decide_eq_true chosen).1, rfl⟩

theorem rewriteRequested_kept {identities : SnapshotIdentityMap} {item : Value × Nat}
    {item' : Value} (shape : isObject item.1 = true)
    (done : rewriteRequested identities item = .ok item') :
    Outside [("resource", ResourceKept)] item.1 item' := by
  obtain ⟨value, index⟩ := item
  cases value with
  | dict requested =>
      obtain ⟨resource, expected, rfl⟩ := map_eq_ok.mp done
      have part : ("resource", ResourceKept) ∈ [(("resource", ResourceKept) : Part)] :=
        List.mem_cons_self
      exact ⟨requested, _, rfl, rfl, (OutsideEntries.refl _ requested).setEntry part
        (expectedResource_kept expected)⟩
  | none | bool _ | int _ | float _ | str _ | list _ => cases shape

end SnapshotRemapper

end AgentLibOS.Snapshots
