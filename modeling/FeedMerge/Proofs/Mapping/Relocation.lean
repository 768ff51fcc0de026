import FeedMerge.Mapping
import FeedMerge.Proofs.Result

/-!
# Reading a mapping somewhere else

The location at which a mapping is read shows in the faults and is kept with the mapping, but the
rules that are read do not depend on it: whatever is read at one location is read at any other one
with the same rules (`Mapping.ofJson_relocate`). What they do depend on is their keys and values:
a rule is read exactly where `Rule.Declares` says so, and keeps the key it is declared under.
-/

namespace FeedMerge

theorem Predicate.ofText_relocate {location : Location} {text : String} {p : Predicate}
    (h : ofText location text = .ok p) (other : Location) : ofText other text = .ok p := by
  unfold ofText at h ⊢
  split at h
  · cases h
  · split at h
    · cases h
    · rename_i hunique
      rw [if_neg hunique]
      dsimp only at h ⊢
      split at h
      · cases h
      · rename_i hfield
        rw [if_neg hfield]
        simpa using h

namespace Rule

/-! ### What declares a rule -/

/-- A value declares a rule under a key: a text renames a field, or tests it if the key is that of a
flag, and an object nests the rules of its own fields. -/
inductive Declares (location : Location) (key : String) : Json → Rule → Prop
  | rename {target : String} (hkey : key ≠ "") (hflag : isFlagKey key = false)
      (htarget : ¬ Text.IsBlank target) :
      Declares location key (.string target) (.rename key target)
  | flag {text : String} {predicate : Predicate} (hkey : key ≠ "") (hflag : isFlagKey key = true)
      (hpredicate : Predicate.ofText location text = .ok predicate) :
      Declares location key (.string text) (.flag key predicate)
  | nested {fields : Fields} {rules : List Rule} (hkey : key ≠ "") (hflag : isFlagKey key = false)
      (hfields : fields.isEmpty = false) (hrules : ofFields location fields = .ok rules) :
      Declares location key (.object fields) (.nested key rules)

variable {location : Location} {key : String} {value : Json} {rule : Rule} {fields : Fields}
  {rules : List Rule}

theorem declares_of_ofEntry (h : ofEntry location key value = .ok rule) :
    Declares location key value rule := by
  -- the key is looked at first, then whether it is that of a flag, then the value
  cases value with
  | string text =>
    rw [ofEntry] at h
    split at h
    · cases h
    · rename_i hkey
      split at h
      · rename_i hflag
        obtain ⟨predicate, hpredicate, rfl⟩ := Except.map_eq_ok.mp h
        exact .flag hkey hflag hpredicate
      · rename_i hflag
        split at h
        · cases h
        · rename_i htarget
          cases h
          exact .rename hkey (eq_false_of_ne_true hflag) htarget
  | object fields =>
    rw [ofEntry] at h
    split at h
    · cases h
    · rename_i hkey
      split at h
      · cases h
      · rename_i hflag
        split at h
        · cases h
        · rename_i hfields
          obtain ⟨rules, hrules, rfl⟩ := Except.map_eq_ok.mp h
          exact .nested hkey (eq_false_of_ne_true hflag) (eq_false_of_ne_true hfields) hrules
  | _ =>
    unfold ofEntry at h
    split at h
    · cases h
    · split at h <;> cases h

theorem ofEntry_eq_ok :
    ofEntry location key value = .ok rule ↔ Declares location key value rule := by
  refine ⟨declares_of_ofEntry, fun h => ?_⟩
  cases h with
  | rename hkey hflag htarget => simp [ofEntry, hkey, hflag, htarget]
  | flag hkey hflag hpredicate =>
    rw [ofEntry, if_neg hkey, if_pos hflag, hpredicate]
    rfl
  | nested hkey hflag hfields hrules =>
    rw [ofEntry, if_neg hkey, hflag, hfields, hrules]
    rfl

theorem ofFields_cons_eq_ok : ofFields location ((key, value) :: fields) = .ok rules ↔
    ∃ rule rest, Declares (location.field key) key value rule ∧
      ofFields location fields = .ok rest ∧ rules = rule :: rest := by
  rw [ofFields]
  constructor
  · intro h
    split at h
    · cases h
    · rename_i rule hrule
      obtain ⟨rest, hrest, rfl⟩ := Except.map_eq_ok.mp h
      exact ⟨rule, rest, declares_of_ofEntry hrule, hrest, rfl⟩
  · rintro ⟨rule, rest, hrule, hrest, rfl⟩
    rw [ofEntry_eq_ok.mpr hrule, hrest]
    rfl

theorem Declares.key_eq (h : Declares location key value rule) : rule.key = key := by
  cases h <;> rfl

/-- Rules that are declared by an object have its keys. -/
theorem keys_of_ofFields (h : ofFields location fields = .ok rules) :
    rules.map Rule.key = fields.map Prod.fst := by
  induction fields generalizing rules with
  | nil =>
    cases h
    rfl
  | cons field fields ih =>
    obtain ⟨rule, rest, hrule, hrest, rfl⟩ := ofFields_cons_eq_ok.mp h
    rw [List.map_cons, List.map_cons, hrule.key_eq, ih hrest]

/-! ### Reading rules somewhere else -/

mutual

theorem Declares.relocate : ∀ {location : Location} {key : String} {value : Json} {rule : Rule},
    Declares location key value rule → ∀ other, Declares other key value rule
  | _, _, .object _, _, .nested hkey hflag hfields hrules, other =>
    .nested hkey hflag hfields (ofFields_relocate hrules other)
  | _, _, .string _, _, .rename hkey hflag htarget, _ => .rename hkey hflag htarget
  | _, _, .string _, _, .flag hkey hflag hpredicate, other =>
    .flag hkey hflag (Predicate.ofText_relocate hpredicate other)

theorem ofFields_relocate : ∀ {location : Location} {fields : Fields} {rules : List Rule},
    ofFields location fields = .ok rules → ∀ other, ofFields other fields = .ok rules
  | _, [], _, h, _ => h
  | location, (key, value) :: fields, rules, h, other => by
    obtain ⟨rule, rest, hrule, hrest, rfl⟩ := ofFields_cons_eq_ok.mp h
    exact ofFields_cons_eq_ok.mpr
      ⟨rule, rest, hrule.relocate (other.field key), ofFields_relocate hrest other, rfl⟩

end

end Rule

namespace Mapping

variable {location : Location} {value : Json} {m : Mapping}

theorem ofJson_eq_ok : ofJson location value = .ok m ↔
    ∃ fields, value = .object fields ∧ fields.isEmpty = false ∧
      Rule.ofFields location fields = .ok m.rules ∧ m.location = location := by
  constructor
  · intro h
    cases value with
    | object fields =>
      rw [ofJson, ofFields] at h
      split at h
      · cases h
      · rename_i hfields
        obtain ⟨rules, hrules, rfl⟩ := Except.map_eq_ok.mp h
        exact ⟨fields, rfl, eq_false_of_ne_true hfields, hrules, rfl⟩
    | _ => cases h
  · rintro ⟨fields, rfl, hfields, hrules, rfl⟩
    rw [ofJson, ofFields, hfields, hrules]
    rfl

/-- What is a mapping at one location is the mapping of the same rules at any other one. -/
theorem ofJson_relocate (h : ofJson location value = .ok m) (other : Location) :
    ofJson other value = .ok ⟨other, m.rules⟩ := by
  obtain ⟨fields, rfl, hfields, hrules, -⟩ := ofJson_eq_ok.mp h
  exact ofJson_eq_ok.mpr ⟨fields, rfl, hfields, Rule.ofFields_relocate hrules other, rfl⟩

end Mapping

end FeedMerge
