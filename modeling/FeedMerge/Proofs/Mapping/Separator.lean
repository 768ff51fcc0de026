import FeedMerge.Proofs.Mapping.NormalForm

/-!
# Where a predicate is separated

A predicate is meant to have one reading: two equals signs stand at one position of its text, and
what is before and behind them are the field and the literal (`IsReading`). The reader cuts the text
at the first two signs in a row and asks whether there are two more behind those. That counts all
positions but one: of three signs in a row it takes the first two, and the pair that begins with the
second of them has lost a sign (`equalsAt_append`). So a text with three signs in a row and no other
pair is read as a comparison with a literal that begins with a sign.
-/

namespace FeedMerge

namespace Predicate

variable {before behind chars : List Char} {location : Location} {text : String} {p : Predicate}
  {i j : Nat}

/-! ### Positions of equals signs -/

/-- Two equals signs stand in a text, at a position and the next. -/
def EqualsAt (chars : List Char) (i : Nat) : Prop :=
  chars[i]? = some '=' ∧ chars[i + 1]? = some '='

instance (chars : List Char) (i : Nat) : Decidable (EqualsAt chars i) :=
  inferInstanceAs (Decidable (_ ∧ _))

theorem equalsAt_cons_zero {c : Char} :
    EqualsAt (c :: chars) 0 ↔ c = '=' ∧ chars.head? = some '=' := by
  simp [EqualsAt, List.head?_eq_getElem?]

theorem equalsAt_cons_succ {c : Char} : EqualsAt (c :: chars) (i + 1) ↔ EqualsAt chars i := by
  simp [EqualsAt]

theorem equalsAt_append_add :
    EqualsAt (before ++ chars) (before.length + i) ↔ EqualsAt chars i := by
  induction before with
  | nil => simp
  | cons c before ih =>
    rw [List.cons_append, List.length_cons, Nat.add_right_comm, equalsAt_cons_succ, ih]

/-- A pair that ends inside the first part of a text is one of that part. -/
theorem equalsAt_append_of_lt (h : i + 1 < before.length) :
    EqualsAt (before ++ chars) i ↔ EqualsAt before i := by
  unfold EqualsAt
  rw [List.getElem?_append_left h, List.getElem?_append_left (Nat.lt_of_succ_lt h)]

theorem lt_length_of_equalsAt (h : EqualsAt chars i) : i + 1 < chars.length :=
  (List.getElem?_eq_some_iff.mp h.2).1

theorem exists_append_of_equalsAt (h : EqualsAt chars i) :
    ∃ before behind, chars = before ++ '=' :: '=' :: behind ∧ before.length = i := by
  induction i generalizing chars with
  | zero =>
    cases chars with
    | nil => simp [EqualsAt] at h
    | cons c chars =>
      obtain ⟨rfl, hhead⟩ := equalsAt_cons_zero.mp h
      obtain ⟨behind, rfl⟩ := List.head?_eq_some_iff.mp hhead
      exact ⟨[], behind, rfl, rfl⟩
  | succ i ih =>
    cases chars with
    | nil => simp [EqualsAt] at h
    | cons c chars =>
      obtain ⟨before, behind, rfl, rfl⟩ := ih (equalsAt_cons_succ.mp h)
      exact ⟨c :: before, behind, rfl, rfl⟩

theorem hasEquals_iff_exists : HasEquals chars ↔ ∃ i, EqualsAt chars i := by
  constructor
  · rintro ⟨before, behind, rfl⟩
    refine ⟨before.length + 0, ?_⟩
    rw [List.append_assoc, equalsAt_append_add]
    exact ⟨rfl, rfl⟩
  · rintro ⟨i, h⟩
    obtain ⟨before, behind, rfl, -⟩ := exists_append_of_equalsAt h
    exact ⟨before, behind, by simp⟩

/-- Where a text is cut at its first two signs and has no two signs behind them, two signs stand at
the joint, and otherwise only if a third sign follows them. -/
theorem equalsAt_append (hbefore : ¬ HasEquals (before ++ ['='])) (hbehind : ¬ HasEquals behind) :
    EqualsAt (before ++ '=' :: '=' :: behind) j ↔
      j = before.length ∨ j = before.length + 1 ∧ behind.head? = some '=' := by
  rcases Nat.lt_or_ge j before.length with hj | hj
  · -- the pair would end with the first sign of the joint, or before it
    refine iff_of_false (fun h => hbefore ?_) (by omega)
    have hlength : j + 1 < (before ++ ['=']).length := by simpa using hj
    rw [List.append_cons] at h
    exact hasEquals_iff_exists.mpr ⟨j, (equalsAt_append_of_lt hlength).mp h⟩
  · obtain ⟨k, rfl⟩ := Nat.exists_eq_add_of_le hj
    rw [equalsAt_append_add]
    match k with
    | 0 => simp [equalsAt_cons_zero]
    | 1 => simp [equalsAt_cons_succ, equalsAt_cons_zero]
    | k + 2 =>
      rw [equalsAt_cons_succ, equalsAt_cons_succ]
      exact iff_of_false (fun h => hbehind (hasEquals_iff_exists.mpr ⟨k, h⟩)) (by omega)

/-- A text whose pairs all begin at a position or the next is cut there by the reader. -/
theorem not_hasEquals_of_equalsAt
    (h : ∀ j, EqualsAt (before ++ '=' :: '=' :: behind) j →
      j = before.length ∨ j = before.length + 1) :
    ¬ HasEquals (before ++ ['=']) ∧ ¬ HasEquals behind := by
  constructor
  · intro hbefore
    obtain ⟨j, hj⟩ := hasEquals_iff_exists.mp hbefore
    have hlength := lt_length_of_equalsAt hj
    have hpair := h j
    rw [List.append_cons, equalsAt_append_of_lt hlength] at hpair
    rw [List.length_append, List.length_singleton] at hlength
    have := hpair hj
    omega
  · intro hbehind
    obtain ⟨j, hj⟩ := hasEquals_iff_exists.mp hbehind
    have hpair := h (before.length + (j + 2))
    rw [equalsAt_append_add, equalsAt_cons_succ, equalsAt_cons_succ] at hpair
    have := hpair hj
    omega

/-! ### Readings -/

/-- What stands before and behind the two characters at a position, trimmed. -/
def cutAt (text : String) (i : Nat) : Predicate where
  field := Text.trim (.ofList (text.toList.take i))
  literal := Text.trim (.ofList (text.toList.drop (i + 2)))

/-- What stands before a position is blank. -/
def IsBlankBefore (text : String) (i : Nat) : Prop :=
  Text.IsBlank (.ofList (text.toList.take i))

/-- A predicate is the one reading of a text: two equals signs stand at one position of the text,
something before them is not blank, and the predicate is cut there. -/
def IsReading (text : String) (p : Predicate) : Prop :=
  ∃ i, (∀ j, EqualsAt text.toList j ↔ j = i) ∧ ¬ IsBlankBefore text i ∧ p = cutAt text i

/-- Three equals signs in a row are all that a text has of pairs, so that there are two positions to
cut it at, and something before them is not blank. -/
def IsOverlapping (text : String) : Prop :=
  ∃ i, (∀ j, EqualsAt text.toList j ↔ j = i ∨ j = i + 1) ∧ ¬ IsBlankBefore text i

theorem ofText_eq_ok : ofText location text = .ok p ↔
    ∃ before behind, text.toList = before ++ '=' :: '=' :: behind ∧
      ¬ HasEquals (before ++ ['=']) ∧ ¬ HasEquals behind ∧ ¬ Text.IsBlank (.ofList before) ∧
      p = ⟨Text.trim (.ofList before), Text.trim (.ofList behind)⟩ := by
  unfold ofText
  constructor
  · intro h
    split at h
    · cases h
    · rename_i before behind hcut
      obtain ⟨htext, hbefore⟩ := cut?_eq_some hcut
      split at h
      · cases h
      · rename_i hbehind
        rw [Option.isSome_iff_ne_none, not_not, cut?_eq_none] at hbehind
        dsimp only at h
        split at h
        · cases h
        · rename_i hnamed
          cases h
          exact ⟨before, behind, htext, hbefore, hbehind, mt Text.trim_eq_empty_iff.mpr hnamed, rfl⟩
  · rintro ⟨before, behind, htext, hbefore, hbehind, hnamed, rfl⟩
    rw [htext, cut?_joint hbefore]
    dsimp only
    rw [cut?_eq_none.mpr hbehind, if_neg (mt Text.trim_eq_empty_iff.mp hnamed)]
    rfl

theorem cutAt_of_append (h : text.toList = before ++ '=' :: '=' :: behind) :
    cutAt text before.length = ⟨Text.trim (.ofList before), Text.trim (.ofList behind)⟩ := by
  have hdrop : (before ++ '=' :: '=' :: behind).drop (before.length + 2) = behind := by simp
  rw [cutAt, h, List.take_left, hdrop]

theorem isBlankBefore_of_append (h : text.toList = before ++ '=' :: '=' :: behind) :
    IsBlankBefore text before.length ↔ Text.IsBlank (.ofList before) := by
  rw [IsBlankBefore, h, List.take_left]

/-- A text is read exactly where two signs stand at a position and nowhere else, or only at the next
position besides. -/
theorem ofText_eq_ok_iff_equalsAt : ofText location text = .ok p ↔
    ∃ i, EqualsAt text.toList i ∧ (∀ j, EqualsAt text.toList j → j = i ∨ j = i + 1) ∧
      ¬ IsBlankBefore text i ∧ p = cutAt text i := by
  rw [ofText_eq_ok]
  constructor
  · rintro ⟨before, behind, htext, hbefore, hbehind, hnamed, rfl⟩
    have hpairs := fun j => @equalsAt_append before behind j hbefore hbehind
    refine ⟨before.length, ?_, fun j hj => ?_, ?_, ?_⟩
    · rw [htext, hpairs]
      exact .inl rfl
    · rw [htext, hpairs] at hj
      exact hj.imp_right And.left
    · rwa [isBlankBefore_of_append htext]
    · rw [cutAt_of_append htext]
  · rintro ⟨i, hi, hothers, hnamed, rfl⟩
    obtain ⟨before, behind, htext, rfl⟩ := exists_append_of_equalsAt hi
    rw [htext] at hothers
    obtain ⟨hbefore, hbehind⟩ := not_hasEquals_of_equalsAt hothers
    rw [isBlankBefore_of_append htext] at hnamed
    exact ⟨before, behind, htext, hbefore, hbehind, hnamed, cutAt_of_append htext⟩

/-- Whatever is wrong with a text, it is refused at its location with a fault of a mapping. -/
theorem exists_cause_of_refused (h : ¬ ∃ p, ofText location text = .ok p) :
    ∃ cause : Cause, ofText location text = .error ⟨cause, location, none⟩ ∧
      cause.category = .mapping := by
  revert h
  unfold ofText
  split
  · exact fun _ => ⟨_, rfl, rfl⟩
  · split
    · exact fun _ => ⟨_, rfl, rfl⟩
    · dsimp only
      split
      · exact fun _ => ⟨_, rfl, rfl⟩
      · exact fun h => absurd ⟨_, rfl⟩ h

/-- A text is read as a predicate exactly if two equals signs stand in it at one position, or at one
and the next, and something before them is not blank; it is cut at the first of the positions. So
the text is read in its one reading, and refused if it has none, unless the signs at two positions
overlap. Every text that is not read is refused with a fault of a mapping at its location. -/
theorem reads_where_signs_stand (location : Location) (text : String) :
    (∀ p, ofText location text = .ok p ↔
      ∃ i, EqualsAt text.toList i ∧ (∀ j, EqualsAt text.toList j → j = i ∨ j = i + 1) ∧
        ¬ IsBlankBefore text i ∧ p = cutAt text i) ∧
    ((∀ p, ofText location text = .ok p ↔ IsReading text p) ↔ ¬ IsOverlapping text) ∧
    ((∃ p, ofText location text = .ok p) ∨
      ∃ cause : Cause, ofText location text = .error ⟨cause, location, none⟩ ∧
        cause.category = .mapping) := by
  refine ⟨fun p => ofText_eq_ok_iff_equalsAt, ⟨?_, ?_⟩, ?_⟩
  · rintro hagree ⟨i, hpairs, hnamed⟩
    have hread : ofText location text = .ok (cutAt text i) :=
      ofText_eq_ok_iff_equalsAt.mpr
        ⟨i, (hpairs i).mpr (.inl rfl), fun j => (hpairs j).mp, hnamed, rfl⟩
    obtain ⟨k, hone, -⟩ := (hagree _).mp hread
    have hfirst := (hone i).mp ((hpairs i).mpr (.inl rfl))
    have hsecond := (hone (i + 1)).mp ((hpairs (i + 1)).mpr (.inr rfl))
    omega
  · intro hoverlap p
    rw [ofText_eq_ok_iff_equalsAt]
    refine exists_congr fun i => ⟨?_, ?_⟩
    · rintro ⟨hi, hothers, hnamed, rfl⟩
      refine ⟨fun j => ⟨fun hj => (hothers j hj).resolve_right ?_, fun hj => hj ▸ hi⟩, hnamed, rfl⟩
      rintro rfl
      refine hoverlap ⟨i, fun k => ⟨hothers k, ?_⟩, hnamed⟩
      rintro (rfl | rfl)
      · exact hi
      · exact hj
    · rintro ⟨hone, hnamed, rfl⟩
      exact ⟨(hone i).mpr rfl, fun j hj => .inl ((hone j).mp hj), hnamed, rfl⟩
  · exact Classical.or_iff_not_imp_left.mpr exists_cause_of_refused

/-- A sign too many is read into the literal, so that the predicate does not hold of the value that
is meant, although there are two positions to cut the text at. -/
theorem reads_a_sign_too_many :
    EqualsAt "Kind===T".toList 4 ∧ EqualsAt "Kind===T".toList 5 ∧
      (¬ ∃ p, IsReading "Kind===T" p) ∧
      ofText .root "Kind===T" = .ok ⟨"Kind", "=T"⟩ ∧
      evaluate ⟨"Kind", "=T"⟩ .root [("Kind", .string "T")] = .ok false := by
  have hfirst : EqualsAt "Kind===T".toList 4 := by decide
  have hsecond : EqualsAt "Kind===T".toList 5 := by decide
  refine ⟨hfirst, hsecond, ?_, by rfl, by rfl⟩
  rintro ⟨p, i, hone, -⟩
  have hpositions := ((hone 4).mp hfirst).trans ((hone 5).mp hsecond).symm
  cases hpositions

end Predicate

end FeedMerge
