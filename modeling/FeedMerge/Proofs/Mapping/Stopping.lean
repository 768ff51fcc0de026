import FeedMerge.Proofs.Mapping.Report

/-!
# Where a mapping stops

A mapping that is not read has a fault, and the fault has a location: that of the mapping itself, if
it is no object or an empty one, or that of one of its rules, which has the same fault when it is
read by itself (`StopsAt`). So the path of the fault goes through the keys to that rule, and from
the root of the mapping to it nothing else is named.
-/

namespace FeedMerge.Mapping

/-- Behind some keys an entry stands at the location of a fault, and has that fault by itself. -/
inductive RuleFault : Location → String → Json → List String → Fault → Prop
  | own {location : Location} {key : String} {value : Json} {fault : Fault}
      (hfault : Rule.ofEntry location key value = .error fault)
      (hlocation : fault.location = location) : RuleFault location key value [] fault
  | inside {location : Location} {key own : String} {fields : Fields} {value : Json}
      {keys : List String} {fault : Fault} (hmem : (own, value) ∈ fields)
      (hfault : RuleFault (location.field own) own value keys fault) :
      RuleFault location key (.object fields) (own :: keys) fault

theorem RuleFault.location_eq {location : Location} {key : String} {value : Json}
    {keys : List String} {fault : Fault} (h : RuleFault location key value keys fault) :
    fault.location = location.along (keys.map .field) := by
  induction h with
  | own _ hlocation => exact hlocation.trans (Location.along_nil _).symm
  | inside _ _ ih => exact ih.trans (Location.along_cons _ _ _).symm

theorem ruleFault_of_kind_ne {location : Location} {key : String} {value : Json} {fault : Fault}
    (hkind : value.kind ≠ .object) (h : Rule.ofEntry location key value = .error fault) :
    ∃ keys, RuleFault location key value keys fault :=
  ⟨[], .own h (IsOwn.of_ofEntry_error (.inr hkind) h).location_eq⟩

theorem ruleFault_of_object {location : Location} {key : String} {fields : Fields} {fault : Fault}
    (ih : Rule.ofFields location fields = .error fault → ∃ own value keys,
      (own, value) ∈ fields ∧ RuleFault (location.field own) own value keys fault)
    (h : Rule.ofEntry location key (.object fields) = .error fault) :
    ∃ keys, RuleFault location key (.object fields) keys fault := by
  have hentry := h
  rw [Rule.ofEntry] at h
  split at h
  · cases h
    exact ⟨[], .own hentry rfl⟩
  · split at h
    · cases h
      exact ⟨[], .own hentry rfl⟩
    · split at h
      · cases h
        exact ⟨[], .own hentry rfl⟩
      · obtain ⟨own, value, keys, hmem, hfault⟩ := ih (Except.map_eq_error.mp h)
        exact ⟨own :: keys, .inside hmem hfault⟩

mutual

theorem exists_ruleFault (location : Location) (key : String) : ∀ (value : Json) (fault : Fault),
    Rule.ofEntry location key value = .error fault → ∃ keys, RuleFault location key value keys fault
  | .object fields, fault, h => ruleFault_of_object (exists_ruleFault_among location fields fault) h
  | .null, _, h => ruleFault_of_kind_ne (by decide) h
  | .bool _, _, h => ruleFault_of_kind_ne (by simp [Json.kind]) h
  | .int _, _, h => ruleFault_of_kind_ne (by simp [Json.kind]) h
  | .float _, _, h => ruleFault_of_kind_ne (by simp [Json.kind]) h
  | .string _, _, h => ruleFault_of_kind_ne (by simp [Json.kind]) h
  | .array _, _, h => ruleFault_of_kind_ne (by simp [Json.kind]) h

theorem exists_ruleFault_among (location : Location) : ∀ (fields : Fields) (fault : Fault),
    Rule.ofFields location fields = .error fault → ∃ own value keys, (own, value) ∈ fields ∧
      RuleFault (location.field own) own value keys fault
  | [], _, h => nomatch h
  | (key, value) :: fields, fault, h => by
    rw [Rule.ofFields] at h
    split at h
    · rename_i first hfirst
      cases h
      obtain ⟨keys, hfault⟩ := exists_ruleFault (location.field key) key value _ hfirst
      exact ⟨key, value, keys, List.mem_cons_self, hfault⟩
    · obtain ⟨own, found, keys, hmem, hfault⟩ :=
        exists_ruleFault_among location fields fault (Except.map_eq_error.mp h)
      exact ⟨own, found, keys, List.mem_cons_of_mem _ hmem, hfault⟩

end

/-- A mapping that is not read stops at itself, being empty or no object, or at one of its rules. -/
inductive StopsAt (location : Location) : Json → List String → Fault → Prop
  | root {value : Json} {fault : Fault} (hvalue : ∀ fields, value = .object fields → fields = [])
      (hlocation : fault.location = location) : StopsAt location value [] fault
  | rule {fields : Fields} {key : String} {value : Json} {keys : List String} {fault : Fault}
      (hmem : (key, value) ∈ fields)
      (hfault : RuleFault (location.field key) key value keys fault) :
      StopsAt location (.object fields) (key :: keys) fault

theorem StopsAt.location_eq {location : Location} {value : Json} {keys : List String}
    {fault : Fault} (h : StopsAt location value keys fault) :
    fault.location = location.along (keys.map .field) := by
  cases h with
  | root _ hlocation => exact hlocation.trans (Location.along_nil _).symm
  | rule _ hfault => exact hfault.location_eq.trans (Location.along_cons _ _ _).symm

theorem exists_stopsAt {location : Location} {value : Json} {fault : Fault}
    (h : ofJson location value = .error fault) : ∃ keys, StopsAt location value keys fault := by
  cases value with
  | object fields =>
    rw [ofJson, ofFields] at h
    split at h
    · rename_i hempty
      cases h
      refine ⟨[], .root (fun own hown => ?_) rfl⟩
      rw [← Json.object.inj hown]
      exact List.isEmpty_iff.mp hempty
    · obtain ⟨key, value, keys, hmem, hfault⟩ :=
        exists_ruleFault_among location fields fault (Except.map_eq_error.mp h)
      exact ⟨key :: keys, .rule hmem hfault⟩
  | _ =>
    cases h
    refine ⟨[], .root (fun own hown => ?_) rfl⟩
    cases hown

/-- The path of the fault goes through the keys that lead to what the mapping stops at. -/
theorem exists_path_of_error {location : Location} {value : Json} {fault : Fault}
    (h : ofJson location value = .error fault) :
    ∃ keys, StopsAt location value keys fault ∧
      fault.location.text = keys.foldl (fun path key => path ++ ("." ++ key)) location.text := by
  obtain ⟨keys, hkeys⟩ := exists_stopsAt h
  refine ⟨keys, hkeys, ?_⟩
  rw [hkeys.location_eq, Location.text_along, List.foldl_map]
  rfl

end FeedMerge.Mapping
