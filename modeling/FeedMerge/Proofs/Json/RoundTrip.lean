import FeedMerge.Proofs.Json.NumberRoundTrip
import FeedMerge.Proofs.Json.TextRoundTrip

/-!
# Values are read as they were written

What `Json.writeValue` makes of a value, `Json.readChars` reads as that value
(`readChars_writeValue`), in every layout that keeps the characters beyond ASCII. Three things can
keep a value from it, and `IsWritable` excludes them: an integer of too many digits, a finite double
whose numeral is not read back as that double, and a name that an object repeats.

The induction is along the value. Behind a value stands what the writer puts there (`EndsValue`),
and the fuel that a value needs is bounded by the length of its text.
-/

namespace FeedMerge

/-! ### Names that differ -/

namespace Fields

theorem bind_of_notMem {fields : Fields} {name : String} (value : Json)
    (h : name ∉ fields.names) : fields.bind name value = fields ++ [(name, value)] := by
  induction fields with
  | nil => rfl
  | cons field fields ih =>
    obtain ⟨key, old⟩ := field
    have hkey : key ≠ name := fun heq => h (by simp [names, heq])
    have hrest : name ∉ names fields := fun hmem => h (List.mem_cons_of_mem _ hmem)
    rw [bind, if_neg hkey, ih hrest]
    rfl

theorem overlay_eq_append {fields updates : Fields} (h : (fields ++ updates).names.Nodup) :
    fields.overlay updates = fields ++ updates := by
  induction updates generalizing fields with
  | nil => exact (List.append_nil fields).symm
  | cons update updates ih =>
    obtain ⟨name, value⟩ := update
    have hsplit : fields ++ (name, value) :: updates = (fields ++ [(name, value)]) ++ updates := by
      simp
    have hname : name ∉ fields.names := by
      have hnames : (fields.names ++ name :: names updates).Nodup := by simpa [names] using h
      intro hmem
      exact (List.nodup_append.mp hnames).2.2 name hmem name List.mem_cons_self rfl
    rw [hsplit] at h ⊢
    rw [← ih h, ← bind_of_notMem value hname]
    rfl

end Fields

namespace Json

/-! ### Values that can be written -/

/-- An integer of no more digits than the reader takes. -/
def IsWithinLimit (n : Int) : Prop := (Nat.toDigits 10 n.natAbs).length ≤ integerDigitLimit

instance (n : Int) : Decidable (IsWithinLimit n) :=
  inferInstanceAs (Decidable ((Nat.toDigits 10 n.natAbs).length ≤ integerDigitLimit))

/-- The decimal text of a double is read as that double. -/
def ReadsBack (x : Float) : Prop :=
  readNumber (Decimal.floatText numberWords x).toList = .ok (.float x, [])

mutual

/-- A value that its text can hold. -/
def IsWritable : Json → Prop
  | .int n => IsWithinLimit n
  | .float x => x.isFinite = true → ReadsBack x
  | .array items => AreWritable items
  | .object fields => (Fields.names fields).Nodup ∧ HasWritableValues fields
  | _ => True

/-- Items that their texts can hold. -/
def AreWritable : List Json → Prop
  | [] => True
  | item :: items => IsWritable item ∧ AreWritable items

/-- Fields whose values their texts can hold. -/
def HasWritableValues : List (String × Json) → Prop
  | [] => True
  | (_, value) :: fields => IsWritable value ∧ HasWritableValues fields

end

theorem areWritable_of_forall {items : List Json} (h : ∀ item ∈ items, item.IsWritable) :
    AreWritable items := by
  induction items with
  | nil => trivial
  | cons item items ih =>
    obtain ⟨hitem, hitems⟩ := List.forall_mem_cons.mp h
    exact ⟨hitem, ih hitems⟩

/-! ### Spaces -/

variable {layout : Layout} {level : Nat} {chars rest : List Char}

theorem skipSpace_append {spaces : List Char} (h : ∀ c ∈ spaces, isSpace c = true) :
    skipSpace (spaces ++ rest) = skipSpace rest :=
  List.dropWhile_append_of_pos h

theorem isSpace_of_mem_lineBreak : ∀ c ∈ layout.lineBreak level, isSpace c = true := by
  intro c hc
  unfold Layout.lineBreak at hc
  split at hc
  · cases hc
  · rcases List.mem_cons.mp hc with rfl | hc
    · rfl
    · rw [List.eq_of_mem_replicate hc]
      rfl

/-- What stands between a comma and the item behind it. -/
def Layout.gap (layout : Layout) (level : Nat) : List Char :=
  match layout.indent with
  | none => [' ']
  | some _ => layout.lineBreak level

theorem separator_eq : layout.separator level = ',' :: layout.gap level := by
  rcases layout with ⟨_ | width, ascii⟩ <;> rfl

theorem isSpace_of_mem_gap : ∀ c ∈ layout.gap level, isSpace c = true := by
  intro c hc
  unfold Layout.gap at hc
  split at hc
  · rw [List.mem_singleton.mp hc]
    rfl
  · exact isSpace_of_mem_lineBreak c hc

theorem endsValue_comma (rest : List Char) : EndsValue (',' :: rest) := by
  intro c hc
  cases hc
  exact .inl rfl

theorem endsValue_lineBreak {c : Char} (h : c = ']' ∨ c = '\x7d') :
    EndsValue (layout.lineBreak level ++ c :: rest) := by
  unfold Layout.lineBreak
  split
  · intro d hd
    cases hd
    exact .inr (.inr h)
  · intro d hd
    cases hd
    exact .inr (.inl rfl)

/-! ### How a value begins -/

/-- A text begins with a character that is no space, and not with the closing bracket of an array or
the mark of a byte order. -/
def Opens (chars : List Char) : Prop :=
  ∃ c more, chars = c :: more ∧ isSpace c = false ∧ c ≠ ']' ∧ c ≠ '\ufeff'

theorem Opens.of_digit {c : Char} {more : List Char} (h : c.isDigit = true) :
    Opens (c :: more) := by
  have hne (d : Char) (hd : d.isDigit = false) : c ≠ d := by
    rintro rfl
    rw [hd] at h
    cases h
  refine ⟨c, more, rfl, ?_, hne ']' rfl, hne '\ufeff' rfl⟩
  simp [isSpace, hne ' ' rfl, hne '\t' rfl, hne '\n' rfl, hne '\r' rfl]

theorem Opens.skipSpace_eq (h : Opens chars) : skipSpace (chars ++ rest) = chars ++ rest := by
  obtain ⟨c, more, rfl, hspace, -⟩ := h
  rw [List.cons_append, skipSpace, List.dropWhile_cons_of_neg (by simp [hspace])]

theorem Opens.append (h : Opens chars) (more : List Char) : Opens (chars ++ more) := by
  obtain ⟨c, tail, rfl, hc⟩ := h
  exact ⟨c, tail ++ more, rfl, hc⟩

theorem Opens.exists_fuel {fuel : Nat} (h : Opens chars) (hfuel : 2 * chars.length ≤ fuel) :
    ∃ n, fuel = n + 1 := by
  obtain ⟨c, tail, rfl, -⟩ := h
  rw [List.length_cons] at hfuel
  exact ⟨fuel - 1, by omega⟩

theorem opens_of_readNumber {result : Json × List Char} (h : readNumber chars = .ok result) :
    Opens chars := by
  obtain ⟨first, more, hbody, hdigit⟩ := exists_digit_of_readNumber h
  cases chars with
  | nil => cases hbody
  | cons sign body =>
    by_cases hminus : sign = '-'
    · subst hminus
      exact ⟨'-', body, rfl, rfl, by decide, by decide⟩
    · rw [numberSign_cons hminus] at hbody
      cases hbody
      exact .of_digit hdigit

theorem opens_writeValue {value : Json} (h : value.IsWritable) :
    Opens (writeValue layout level value) := by
  cases value with
  | null => exact ⟨'n', _, rfl, rfl, by decide, by decide⟩
  | bool truth => cases truth <;> exact ⟨_, _, rfl, rfl, by decide, by decide⟩
  | int n =>
    rw [writeValue]
    exact opens_of_readNumber (readNumber_toString h)
  | float x =>
    rw [writeValue]
    cases hfinite : x.isFinite with
    | true => exact opens_of_readNumber (h hfinite)
    | false =>
      rcases float_eq_of_not_isFinite hfinite with rfl | rfl | rfl <;>
        exact ⟨_, _, rfl, rfl, by decide, by decide⟩
  | string s => exact ⟨'"', _, rfl, rfl, by decide, by decide⟩
  | array items => cases items <;> exact ⟨'[', _, rfl, rfl, by decide, by decide⟩
  | object fields => cases fields <;> exact ⟨'\x7b', _, rfl, rfl, by decide, by decide⟩

/-! ### The steps of the reader -/

variable {fuel : Nat} {item value : Json} {name : String} {more next : List Char}

theorem readItems_last (hvalue : readValue fuel chars = .ok (item, more))
    (hmore : skipSpace more = ']' :: rest) : readItems (fuel + 1) chars = .ok ([item], rest) := by
  rw [readItems, hvalue]
  dsimp only
  rw [hmore]
  rfl

theorem readItems_more {items : List Json} (hvalue : readValue fuel chars = .ok (item, more))
    (hmore : skipSpace more = ',' :: next)
    (hitems : readItems fuel (skipSpace next) = .ok (items, rest)) :
    readItems (fuel + 1) chars = .ok (item :: items, rest) := by
  rw [readItems, hvalue]
  dsimp only
  rw [hmore]
  change (readItems fuel (skipSpace next)).map _ = _
  rw [hitems]
  rfl

theorem writeText_append (name : String) (chars : List Char) :
    writeText false name ++ chars =
      '"' :: (name.toList.flatMap (writeChar false) ++ '"' :: chars) := by
  simp [writeText]

theorem readFields_last (hchars : skipSpace chars = chars)
    (hvalue : readValue fuel chars = .ok (value, more)) (hmore : skipSpace more = '\x7d' :: rest) :
    readFields (fuel + 1) (writeText false name ++ ':' :: ' ' :: chars) =
      .ok ([(name, value)], rest) := by
  have hcolon : skipSpace (':' :: ' ' :: chars) = ':' :: ' ' :: chars := rfl
  have hspace : skipSpace (' ' :: chars) = chars := hchars
  rw [writeText_append, readFields, readText_writeText]
  simp only [hcolon, hspace, hvalue, hmore]

theorem readFields_more {fields : Fields} (hchars : skipSpace chars = chars)
    (hvalue : readValue fuel chars = .ok (value, more)) (hmore : skipSpace more = ',' :: next)
    (hfields : readFields fuel (skipSpace next) = .ok (fields, rest)) :
    readFields (fuel + 1) (writeText false name ++ ':' :: ' ' :: chars) =
      .ok ((name, value) :: fields, rest) := by
  have hcolon : skipSpace (':' :: ' ' :: chars) = ':' :: ' ' :: chars := rfl
  have hspace : skipSpace (' ' :: chars) = chars := hchars
  rw [writeText_append, readFields, readText_writeText]
  simp only [hcolon, hspace, hvalue, hmore, hfields]
  rfl

theorem readValue_items {c : Char} {items : List Json} (hnext : skipSpace next = c :: more)
    (hc : c ≠ ']') (hitems : readItems fuel (c :: more) = .ok (items, rest)) :
    readValue (fuel + 1) ('[' :: next) = .ok (.array items, rest) := by
  rw [readValue, hnext]
  split
  · rename_i heq
    exact absurd (List.cons.inj heq).1 hc
  · rw [hitems]
    rfl

theorem readValue_fields {fields : Fields} (hnext : skipSpace next = '"' :: more)
    (hnames : fields.names.Nodup) (hfields : readFields fuel ('"' :: more) = .ok (fields, rest)) :
    readValue (fuel + 1) ('\x7b' :: next) = .ok (.object fields, rest) := by
  rw [readValue, hnext]
  change (readFields fuel ('"' :: more)).map _ = _
  rw [hfields]
  have hoverlay : Fields.overlay [] fields = fields := Fields.overlay_eq_append hnames
  change Except.ok (Json.object (Fields.overlay [] fields), rest) = _
  rw [hoverlay]

/-! ### The text of a value in its parts -/

/-- The items of an array as they stand in its text. -/
def itemsText (layout : Layout) (level : Nat) : List Json → List Char
  | [] => []
  | item :: items => writeValue layout level item ++ writeItems layout level items

/-- The fields of an object as they stand in its text. -/
def fieldsText (layout : Layout) (level : Nat) : List (String × Json) → List Char
  | [] => []
  | (name, value) :: fields =>
    writeText layout.ascii name ++ ':' :: ' ' ::
      (writeValue layout level value ++ writeFields layout level fields)

theorem writeItems_cons (items : List Json) :
    writeItems layout level (item :: items) =
      ',' :: (layout.gap level ++ itemsText layout level (item :: items)) := by
  simp [writeItems, itemsText, separator_eq]

theorem writeFields_cons (fields : Fields) :
    writeFields layout level ((name, value) :: fields) =
      ',' :: (layout.gap level ++ fieldsText layout level ((name, value) :: fields)) := by
  simp [writeFields, fieldsText, separator_eq]

theorem writeValue_array (items : List Json) :
    writeValue layout level (.array (item :: items)) =
      '[' :: (layout.lineBreak (level + 1) ++ (itemsText layout (level + 1) (item :: items) ++
        (layout.lineBreak level ++ [']']))) := by
  simp [writeValue, itemsText]

theorem writeValue_object (fields : Fields) :
    writeValue layout level (.object ((name, value) :: fields)) =
      '\x7b' :: (layout.lineBreak (level + 1) ++
        (fieldsText layout (level + 1) ((name, value) :: fields) ++
          (layout.lineBreak level ++ ['\x7d']))) := by
  simp [writeValue, fieldsText]

theorem opens_itemsText {items : List Json} (h : AreWritable (item :: items)) :
    Opens (itemsText layout level (item :: items)) :=
  (opens_writeValue h.1).append _

theorem opens_fieldsText (fields : Fields) :
    Opens (fieldsText layout level ((name, value) :: fields)) :=
  ⟨'"', _, rfl, rfl, by decide, by decide⟩

/-! ### Values -/

theorem readValue_scalar (hascii : layout.ascii = false) (hscalar : value.isScalar = true)
    (hvalue : value.IsWritable) (hrest : EndsValue rest)
    (hfuel : 2 * (writeValue layout level value).length ≤ fuel) :
    readValue fuel (writeValue layout level value ++ rest) = .ok (value, rest) := by
  obtain ⟨fuel, rfl⟩ := (opens_writeValue hvalue).exists_fuel hfuel
  cases value with
  | null => rfl
  | bool truth => cases truth <;> rfl
  | int n =>
    rw [writeValue]
    exact readValue_of_readNumber fuel (readNumber_append (readNumber_toString hvalue) hrest)
  | float x =>
    rw [writeValue]
    cases hfinite : x.isFinite with
    | true => exact readValue_of_readNumber fuel (readNumber_append (hvalue hfinite) hrest)
    | false => exact readValue_floatText fuel rest hfinite
  | string s =>
    rw [writeValue, hascii, writeText_append, readValue, readText_writeText]
    rfl
  | array items => cases hscalar
  | object fields => cases hscalar

-- A value takes two units of fuel for each character of its text. The items of an array need one
-- more than their text accounts for, which the opening bracket pays for; fields are the same.
mutual

theorem readValue_writeValue (hascii : layout.ascii = false) : ∀ (value : Json) (level fuel : Nat)
    (rest : List Char), value.IsWritable → EndsValue rest →
      2 * (writeValue layout level value).length ≤ fuel →
      readValue fuel (writeValue layout level value ++ rest) = .ok (value, rest)
  | .array [], _, _, _, hvalue, _, hfuel => by
    obtain ⟨fuel, rfl⟩ := (opens_writeValue hvalue).exists_fuel hfuel
    rfl
  | .array (item :: items), level, _, rest, hvalue, _, hfuel => by
    obtain ⟨fuel, rfl⟩ := (opens_writeValue hvalue).exists_fuel hfuel
    have hopens : Opens (itemsText layout (level + 1) (item :: items)) := opens_itemsText hvalue
    rw [writeValue_array] at hfuel ⊢
    simp only [List.length_cons, List.length_append] at hfuel
    have hitems := readItems_itemsText hascii (item :: items) (level + 1) level fuel rest
      (List.cons_ne_nil _ _) hvalue (by omega)
    simp only [List.cons_append, List.append_assoc, List.nil_append]
    obtain ⟨c, more, hfirst, -, hc, -⟩ := hopens.append (layout.lineBreak level ++ ']' :: rest)
    -- behind the break the reader is at the first item, which does not close the array
    rw [hfirst] at hitems
    refine readValue_items ?_ hc hitems
    rw [skipSpace_append isSpace_of_mem_lineBreak, hopens.skipSpace_eq, hfirst]
  | .object [], _, _, _, hvalue, _, hfuel => by
    obtain ⟨fuel, rfl⟩ := (opens_writeValue hvalue).exists_fuel hfuel
    rfl
  | .object ((name, value) :: fields), level, _, rest, hvalue, _, hfuel => by
    obtain ⟨fuel, rfl⟩ := (opens_writeValue hvalue).exists_fuel hfuel
    rw [writeValue_object] at hfuel ⊢
    simp only [List.length_cons, List.length_append] at hfuel
    have hfields := readFields_fieldsText hascii ((name, value) :: fields) (level + 1) level fuel
      rest (List.cons_ne_nil _ _) hvalue.2 (by omega)
    simp only [List.cons_append, List.append_assoc, List.nil_append]
    refine readValue_fields ?_ hvalue.1 hfields
    rw [skipSpace_append isSpace_of_mem_lineBreak, (opens_fieldsText fields).skipSpace_eq]
    rfl
  | .null, _, _, _, hvalue, hrest, hfuel => readValue_scalar hascii rfl hvalue hrest hfuel
  | .bool _, _, _, _, hvalue, hrest, hfuel => readValue_scalar hascii rfl hvalue hrest hfuel
  | .int _, _, _, _, hvalue, hrest, hfuel => readValue_scalar hascii rfl hvalue hrest hfuel
  | .float _, _, _, _, hvalue, hrest, hfuel => readValue_scalar hascii rfl hvalue hrest hfuel
  | .string _, _, _, _, hvalue, hrest, hfuel => readValue_scalar hascii rfl hvalue hrest hfuel

theorem readItems_itemsText (hascii : layout.ascii = false) : ∀ (items : List Json)
    (level above fuel : Nat) (rest : List Char), items ≠ [] → AreWritable items →
      2 * (itemsText layout level items).length + 1 ≤ fuel →
      readItems fuel (itemsText layout level items ++ (layout.lineBreak above ++ ']' :: rest)) =
        .ok (items, rest)
  | [], _, _, _, _, hne, _, _ => absurd rfl hne
  | item :: items, level, above, fuel, rest, _, hitems, hfuel => by
    obtain ⟨fuel, rfl⟩ : ∃ n, fuel = n + 1 := ⟨fuel - 1, by omega⟩
    rw [itemsText, List.length_append] at hfuel
    rw [itemsText, List.append_assoc]
    cases items with
    | nil =>
      have hvalue := readValue_writeValue hascii item level fuel
        (layout.lineBreak above ++ ']' :: rest) hitems.1 (endsValue_lineBreak (.inl rfl)) (by omega)
      refine readItems_last hvalue ?_
      rw [skipSpace_append isSpace_of_mem_lineBreak]
      rfl
    | cons second items =>
      rw [writeItems_cons] at hfuel ⊢
      simp only [List.length_cons, List.length_append] at hfuel
      simp only [List.cons_append, List.append_assoc]
      have hvalue := readValue_writeValue hascii item level fuel (',' :: (layout.gap level ++
        (itemsText layout level (second :: items) ++ (layout.lineBreak above ++ ']' :: rest))))
        hitems.1 (endsValue_comma _) (by omega)
      refine readItems_more hvalue rfl ?_
      rw [skipSpace_append isSpace_of_mem_gap, (opens_itemsText hitems.2).skipSpace_eq]
      exact readItems_itemsText hascii (second :: items) level above fuel rest
        (List.cons_ne_nil _ _) hitems.2 (by omega)

theorem readFields_fieldsText (hascii : layout.ascii = false) : ∀ (fields : List (String × Json))
    (level above fuel : Nat) (rest : List Char), fields ≠ [] → HasWritableValues fields →
      2 * (fieldsText layout level fields).length + 1 ≤ fuel →
      readFields fuel (fieldsText layout level fields ++
        (layout.lineBreak above ++ '\x7d' :: rest)) = .ok (fields, rest)
  | [], _, _, _, _, hne, _, _ => absurd rfl hne
  | (name, value) :: fields, level, above, fuel, rest, _, hfields, hfuel => by
    obtain ⟨fuel, rfl⟩ : ∃ n, fuel = n + 1 := ⟨fuel - 1, by omega⟩
    have hopens : Opens (writeValue layout level value) := opens_writeValue hfields.1
    simp only [fieldsText, List.length_cons, List.length_append] at hfuel
    simp only [fieldsText, hascii, List.cons_append, List.append_assoc]
    cases fields with
    | nil =>
      have hvalue := readValue_writeValue hascii value level fuel
        (layout.lineBreak above ++ '\x7d' :: rest) hfields.1 (endsValue_lineBreak (.inr rfl))
        (by omega)
      refine readFields_last hopens.skipSpace_eq hvalue ?_
      rw [skipSpace_append isSpace_of_mem_lineBreak]
      rfl
    | cons second fields =>
      obtain ⟨next, following⟩ := second
      rw [writeFields_cons] at hfuel ⊢
      simp only [List.length_cons, List.length_append] at hfuel
      simp only [List.cons_append, List.append_assoc]
      have hvalue := readValue_writeValue hascii value level fuel (',' :: (layout.gap level ++
        (fieldsText layout level ((next, following) :: fields) ++
          (layout.lineBreak above ++ '\x7d' :: rest)))) hfields.1 (endsValue_comma _) (by omega)
      refine readFields_more hopens.skipSpace_eq hvalue rfl ?_
      rw [skipSpace_append isSpace_of_mem_gap, (opens_fieldsText fields).skipSpace_eq]
      exact readFields_fieldsText hascii ((next, following) :: fields) level above fuel rest
        (List.cons_ne_nil _ _) hfields.2 (by omega)

end

/-- What was written is read as it was, also with spaces behind it. -/
theorem readChars_writeValue (hascii : layout.ascii = false) (hvalue : value.IsWritable)
    (hrest : EndsValue rest) (hspaces : skipSpace rest = []) :
    readChars (writeValue layout 0 value ++ rest) = .ok value := by
  have hopens : Opens (writeValue layout 0 value) := opens_writeValue hvalue
  have hread := readValue_writeValue hascii value 0 (fuelFor (writeValue layout 0 value ++ rest))
    rest hvalue hrest (by rw [fuelFor, List.length_append]; omega)
  have hskip : skipSpace (writeValue layout 0 value ++ rest) = writeValue layout 0 value ++ rest :=
    hopens.skipSpace_eq
  obtain ⟨c, more, hfirst, -, -, hmark⟩ := hopens.append rest
  rw [hfirst] at hread hskip ⊢
  unfold readChars
  split
  · rename_i heq
    exact absurd (List.cons.inj heq).1 hmark
  · rw [hskip, hread]
    dsimp only
    rw [hspaces]

/-! ### No carriage return -/

theorem notMem_lineBreak : '\r' ∉ layout.lineBreak level := by
  unfold Layout.lineBreak
  split <;> simp

theorem notMem_separator : '\r' ∉ layout.separator level := by
  unfold Layout.separator
  split
  · decide
  · simp [notMem_lineBreak]

mutual

theorem notMem_writeValue (hascii : layout.ascii = false) :
    ∀ (value : Json) (level : Nat), '\r' ∉ writeValue layout level value
  | .null, _ => by simp [writeValue]
  | .bool true, _ => by simp [writeValue]
  | .bool false, _ => by simp [writeValue]
  | .int n, _ => notMem_toString n
  | .float x, _ => Decimal.notMem_floatText x
  | .string s, _ => by
    rw [writeValue, hascii]
    exact notMem_writeText s
  | .array [], _ => by simp [writeValue]
  | .array (item :: items), level => by
    simp [writeValue, notMem_lineBreak, notMem_writeValue hascii item,
      notMem_writeItems hascii items]
  | .object [], _ => by simp [writeValue]
  | .object ((name, value) :: fields), level => by
    simp [writeValue, hascii, notMem_lineBreak, notMem_writeText, notMem_writeValue hascii value,
      notMem_writeFields hascii fields]

theorem notMem_writeItems (hascii : layout.ascii = false) :
    ∀ (items : List Json) (level : Nat), '\r' ∉ writeItems layout level items
  | [], _ => List.not_mem_nil
  | item :: items, level => by
    simp [writeItems, notMem_separator, notMem_writeValue hascii item,
      notMem_writeItems hascii items]

theorem notMem_writeFields (hascii : layout.ascii = false) :
    ∀ (fields : List (String × Json)) (level : Nat), '\r' ∉ writeFields layout level fields
  | [], _ => List.not_mem_nil
  | (name, value) :: fields, level => by
    simp [writeFields, hascii, notMem_separator, notMem_writeText, notMem_writeValue hascii value,
      notMem_writeFields hascii fields]

end

end Json

end FeedMerge
