import FeedMerge.Mapping
import FeedMerge.Proofs.Mapping.Relocation
import FeedMerge.Proofs.Text.Trimming

/-!
# Mappings in normal form

A mapping is written back with its predicates in one spelling: the field, two equals signs between
spaces, and the literal. What is written declares the mapping that was read, at the same location
(`Mapping.ofJson_toJson`), so a mapping in normal form stays as it is.

The spelling is safe because both sides of a predicate are trimmed, and because neither of them has
two equals signs in a row. They may have single ones, also next to the joint: in `a= == =b` the
space on either side keeps the four apart.
-/

namespace FeedMerge

namespace Predicate

variable {before behind chars : List Char} {location : Location} {text : String} {p : Predicate}

/-! ### Cutting a text -/

/-- Two equals signs in a row stand somewhere in a text. -/
def HasEquals (chars : List Char) : Prop := ['=', '='] <:+: chars

instance (chars : List Char) : Decidable (HasEquals chars) :=
  inferInstanceAs (Decidable (['=', '='] <:+: chars))

theorem HasEquals.mono {part : List Char} (h : HasEquals part) (hpart : part <:+: chars) :
    HasEquals chars :=
  List.IsInfix.trans h hpart

theorem hasEquals_cons {c : Char} :
    HasEquals (c :: chars) ↔ (c = '=' ∧ chars.head? = some '=') ∨ HasEquals chars := by
  unfold HasEquals
  rw [List.infix_cons_iff, List.cons_prefix_cons, eq_comm]
  cases chars with
  | nil => simp
  | cons d rest => simp [List.cons_prefix_cons, eq_comm]

theorem hasEquals_concat {c : Char} :
    HasEquals (chars ++ [c]) ↔ (c = '=' ∧ chars.getLast? = some '=') ∨ HasEquals chars := by
  have hreverse (chars : List Char) : HasEquals chars.reverse ↔ HasEquals chars := by
    change ['=', '='].reverse <:+: chars.reverse ↔ ['=', '='] <:+: chars
    exact List.reverse_infix
  rw [← hreverse, List.reverse_concat, hasEquals_cons, List.head?_reverse, hreverse]

theorem cut?_cons {c : Char} (h : ¬ (c = '=' ∧ chars.head? = some '=')) :
    cut? (c :: chars) = (cut? chars).map fun (before, behind) => (c :: before, behind) := by
  rw [cut?]
  rintro rest rfl rfl
  exact h ⟨rfl, rfl⟩

theorem cut?_eq_none : cut? chars = none ↔ ¬ HasEquals chars := by
  induction chars with
  | nil => simp [cut?, HasEquals]
  | cons c chars ih =>
    rw [hasEquals_cons]
    by_cases hjoint : c = '=' ∧ chars.head? = some '='
    · obtain ⟨rfl, hhead⟩ := hjoint
      obtain ⟨rest, rfl⟩ := List.head?_eq_some_iff.mp hhead
      simp [cut?]
    · rw [cut?_cons hjoint, Option.map_eq_none_iff, ih]
      simp [hjoint]

/-- The first sign at the joint belongs to no pair with what stands before it. -/
theorem cut?_joint (h : ¬ HasEquals (before ++ ['='])) :
    cut? (before ++ '=' :: '=' :: behind) = some (before, behind) := by
  induction before with
  | nil => rfl
  | cons c before ih =>
    rw [List.cons_append, hasEquals_cons, not_or] at h
    have hjoint : ¬ (c = '=' ∧ (before ++ '=' :: '=' :: behind).head? = some '=') := by
      rintro ⟨rfl, hhead⟩
      apply h.1
      cases before <;> simp_all
    rw [List.cons_append, cut?_cons hjoint, ih h.2]
    rfl

/-- A text is cut at its first two equals signs: there are none before the second of them. -/
theorem cut?_eq_some (h : cut? chars = some (before, behind)) :
    chars = before ++ '=' :: '=' :: behind ∧ ¬ HasEquals (before ++ ['=']) := by
  induction chars generalizing before with
  | nil => cases h
  | cons c chars ih =>
    by_cases hjoint : c = '=' ∧ chars.head? = some '='
    · obtain ⟨rfl, hhead⟩ := hjoint
      obtain ⟨rest, rfl⟩ := List.head?_eq_some_iff.mp hhead
      cases h
      exact ⟨rfl, by decide⟩
    · rw [cut?_cons hjoint] at h
      obtain ⟨⟨first, rest⟩, hcut, heq⟩ := Option.map_eq_some_iff.mp h
      cases heq
      obtain ⟨rfl, hfirst⟩ := ih hcut
      refine ⟨rfl, ?_⟩
      rw [List.cons_append, hasEquals_cons, not_or]
      refine ⟨?_, hfirst⟩
      rintro ⟨rfl, hhead⟩
      apply hjoint
      cases first <;> simp_all

/-! ### The text of a predicate -/

/-- What a predicate that was read is made of: both sides are trimmed, neither has two equals signs
in a row, and the field has a name. -/
structure IsNormal (p : Predicate) : Prop where
  field_trimmed : Text.trim p.field = p.field
  literal_trimmed : Text.trim p.literal = p.literal
  field_equals : ¬ HasEquals p.field.toList
  literal_equals : ¬ HasEquals p.literal.toList
  named : p.field ≠ ""

theorem isNormal_of_ofText (h : ofText location text = .ok p) : p.IsNormal := by
  unfold ofText at h
  split at h
  · cases h
  · rename_i before behind hcut
    obtain ⟨-, hbefore⟩ := cut?_eq_some hcut
    split at h
    · cases h
    · rename_i hbehind
      rw [Option.isSome_iff_ne_none, not_not, cut?_eq_none] at hbehind
      dsimp only at h
      split at h
      · cases h
      · rename_i hnamed
        cases h
        have hpart (chars : List Char) : (Text.trim (.ofList chars)).toList <:+: chars := by
          rw [Text.toList_trim, String.toList_ofList]
          exact Text.trimChars_infix
        refine ⟨Text.trim_trim, Text.trim_trim, fun hequals => hbefore ?_, fun hequals =>
          hbehind (hequals.mono (hpart behind)), hnamed⟩
        exact hequals.mono ((hpart before).trans (List.prefix_append before _).isInfix)

theorem toList_text (p : Predicate) :
    p.text.toList = (p.field.toList ++ [' ']) ++ '=' :: '=' :: ' ' :: p.literal.toList := by
  simp [text]

/-- The text of a predicate in normal form is cut between its field and its literal. -/
theorem IsNormal.ofText_text (h : p.IsNormal) (location : Location) :
    ofText location p.text = .ok p := by
  have hspace : ¬ HasEquals ((p.field.toList ++ [' ']) ++ ['=']) := by
    rw [hasEquals_concat, hasEquals_concat]
    simp [h.field_equals]
  have hbehind : cut? (' ' :: p.literal.toList) = none := by
    rw [cut?_eq_none, hasEquals_cons]
    simp [h.literal_equals]
  have hfield : Text.trim (.ofList (p.field.toList ++ [' '])) = p.field := by
    rw [Text.trim_concat rfl, String.ofList_toList, h.field_trimmed]
  have hliteral : Text.trim (.ofList (' ' :: p.literal.toList)) = p.literal := by
    rw [Text.trim_cons rfl, String.ofList_toList, h.literal_trimmed]
  rw [ofText, toList_text, cut?_joint hspace]
  dsimp only
  rw [hbehind, hfield, hliteral, if_neg h.named]
  rfl

/-- What a value was read as is read again from its text, wherever that stands. -/
theorem ofJson_text {value : Json} (h : ofJson location value = .ok p) (other : Location) :
    ofJson other (.string p.text) = .ok p := by
  cases value with
  | string text => exact (isNormal_of_ofText h).ofText_text other
  | _ => cases h

end Predicate

/-! ### Rules and mappings -/

namespace Rule

theorem fst_toFields (rules : List Rule) : (toFields rules).map Prod.fst = rules.map key := by
  induction rules with
  | nil => rfl
  | cons rule rules ih => rw [toFields, List.map_cons, List.map_cons, ih]

/-- Rules are written under the keys that they are declared with, so none is written if none is
declared. -/
theorem isEmpty_toFields {location : Location} {fields : Fields} {rules : List Rule}
    (h : ofFields location fields = .ok rules) : (toFields rules).isEmpty = fields.isEmpty := by
  have hkeys : (toFields rules).map Prod.fst = fields.map Prod.fst :=
    (fst_toFields rules).trans (keys_of_ofFields h)
  simpa using congrArg List.isEmpty hkeys

mutual

/-- What a rule is written with declares the rule again. -/
theorem Declares.toJson : ∀ {location : Location} {key : String} {value : Json} {rule : Rule},
    Declares location key value rule → Declares location key rule.toJson rule
  | _, _, .object _, _, .nested hkey hflag hfields hrules =>
    .nested hkey hflag ((isEmpty_toFields hrules).trans hfields) (ofFields_toFields hrules)
  | _, _, .string _, _, .rename hkey hflag htarget => .rename hkey hflag htarget
  | location, _, .string _, _, .flag hkey hflag hpredicate =>
    .flag hkey hflag ((Predicate.isNormal_of_ofText hpredicate).ofText_text location)

theorem ofFields_toFields : ∀ {location : Location} {fields : Fields} {rules : List Rule},
    ofFields location fields = .ok rules → ofFields location (toFields rules) = .ok rules
  | _, [], _, h => by
    cases h
    rfl
  | location, (key, value) :: fields, rules, h => by
    obtain ⟨rule, rest, hrule, hrest, rfl⟩ := ofFields_cons_eq_ok.mp h
    rw [toFields, hrule.key_eq]
    exact ofFields_cons_eq_ok.mpr ⟨rule, rest, hrule.toJson, ofFields_toFields hrest, rfl⟩

end

/-- Each rule of an object is declared by one of its fields, at the location of that field. -/
theorem exists_value_of_mem {location : Location} {fields : Fields} {rules : List Rule}
    {rule : Rule} (h : ofFields location fields = .ok rules) (hmem : rule ∈ rules) :
    ∃ value, Declares (location.field rule.key) rule.key value rule := by
  induction fields generalizing rules with
  | nil =>
    cases h
    cases hmem
  | cons field fields ih =>
    obtain ⟨first, rest, hfirst, hrest, rfl⟩ := ofFields_cons_eq_ok.mp h
    rcases List.mem_cons.mp hmem with rfl | hmem
    · exact ⟨field.2, by rwa [hfirst.key_eq]⟩
    · exact ih hrest hmem

end Rule

namespace Mapping

variable {location : Location} {value : Json} {m level : Mapping}

theorem ofJson_toJson (h : ofJson location value = .ok m) : ofJson location m.toJson = .ok m := by
  obtain ⟨fields, rfl, hfields, hrules, hlocation⟩ := ofJson_eq_ok.mp h
  refine ofJson_eq_ok.mpr ⟨Rule.toFields m.rules, rfl, ?_, Rule.ofFields_toFields hrules, hlocation⟩
  rw [Rule.isEmpty_toFields hrules, hfields]

/-- The levels of a mapping: its own, and those of its nested rules and below them. -/
inductive HasLevel (m : Mapping) : Mapping → Prop
  | own : HasLevel m m
  | nested {level : Mapping} {source : String} {rules : List Rule} (hlevel : HasLevel m level)
      (hmem : .nested source rules ∈ level.rules) : HasLevel m (level.below source rules)

/-- Each level of a mapping that was read was itself read, at its own location. -/
theorem HasLevel.exists_ofJson (hlevel : m.HasLevel level) (h : ofJson location value = .ok m) :
    ∃ part, ofJson level.location part = .ok level := by
  induction hlevel with
  | own =>
    obtain ⟨fields, -, hfields, hrules, rfl⟩ := ofJson_eq_ok.mp h
    exact ⟨.object fields, ofJson_eq_ok.mpr ⟨fields, rfl, hfields, hrules, rfl⟩⟩
  | @nested level source rules _ hmem ih =>
    obtain ⟨part, hpart⟩ := ih
    obtain ⟨fields, -, -, hrules, -⟩ := ofJson_eq_ok.mp hpart
    obtain ⟨value, hvalue⟩ := Rule.exists_value_of_mem hrules hmem
    cases hvalue with
    | @nested below _ _ _ hne hbelow =>
      exact ⟨.object below, ofJson_eq_ok.mpr ⟨below, rfl, hne, hbelow, rfl⟩⟩

/-- The normal form of a value, if it declares a mapping. -/
def normalForm (location : Location) (value : Json) : Except Fault Json :=
  (ofJson location value).map toJson

theorem normalForm_normalForm (location : Location) (value : Json) :
    normalForm location value >>= normalForm location = normalForm location value := by
  unfold normalForm
  cases hm : ofJson location value with
  | error fault => rfl
  | ok m =>
    change (ofJson location m.toJson).map toJson = .ok m.toJson
    rw [ofJson_toJson hm]
    rfl

/-- A mapping in normal form declares the mapping that was read, with the same rules in the same
order and the same predicates, at the same location; and so does the normal form of each of its
levels, at the location of that level. So a normal form is its own normal form. The predicates on
their own are read again from their texts, wherever those stand. -/
theorem reads_normal_form (h : ofJson location value = .ok m) :
    ofJson location m.toJson = .ok m ∧
    (∀ level, m.HasLevel level → ofJson level.location level.toJson = .ok level) ∧
    normalForm location value >>= normalForm location = normalForm location value ∧
    ∀ (place other : Location) (source : Json) (p : Predicate),
      Predicate.ofJson place source = .ok p → Predicate.ofJson other (.string p.text) = .ok p := by
  refine ⟨ofJson_toJson h, ?_, normalForm_normalForm location value, ?_⟩
  · intro level hlevel
    obtain ⟨part, hpart⟩ := hlevel.exists_ofJson h
    exact ofJson_toJson hpart
  · intro place other source p hp
    exact Predicate.ofJson_text hp other

/-- Single equals signs on both sides of the joint, below a nested rule. -/
theorem reads_signs_at_the_joint :
    ∃ m, ofJson .root (.object [("Room", .object [("isOpen", .string " a= == =b "),
        ("t", .string "Value")])]) = .ok m ∧
      ofJson .root m.toJson = .ok m ∧
      m.toJson = .object [("Room", .object [("isOpen", .string "a= == =b"),
        ("t", .string "Value")])] := by
  have h : ofJson .root (.object [("Room", .object [("isOpen", .string " a= == =b "),
      ("t", .string "Value")])]) =
      .ok ⟨.root, [.nested "Room" [.flag "isOpen" ⟨"a=", "=b"⟩, .rename "t" "Value"]]⟩ := by
    rfl
  exact ⟨_, h, (reads_normal_form h).1, rfl⟩

end Mapping

end FeedMerge
