import FeedMerge.Proofs.Projection.Checks

/-!
# Projecting by another clock

A projection looks at the clock for nothing but the times of its records. So one that goes through
gives the same records at another reading of the clock if what each of them is given for its time
tells the same at both (`ofDocument_withClock`). This holds of every text in the form of ISO 8601;
it fails of `now`, of a bare time of day, and of a year in two digits, which is taken to be near the
present one.
-/

namespace FeedMerge

/-- Whether a value tells the same time at two readings of the clock. -/
def Timestamp.SameAt (now later : Timestamp) (v : Json) : Prop :=
  ofSource later (.value v) = ofSource now (.value v)

/-- Whether a value is a text in the form of ISO 8601. -/
def Timestamp.isIso : Json → Bool
  | .string text =>
    (Iso.read? (Iso.expandZulu (Text.trimChars Text.isBlank text.toList))).isSome
  | _ => false

theorem Timestamp.sameAt_of_isIso {v : Json} (h : isIso v = true) (now later : Timestamp) :
    SameAt now later v := by
  cases v with
  | string text =>
    obtain ⟨l, hl⟩ := Option.isSome_iff_exists.mp h
    change ofText later text = ofText now text
    rw [ofText, ofText, readLocal, readLocal, hl]
  | _ => cases h

namespace Context

/-- The context at another reading of the clock. -/
def withClock (c : Context) (now : Timestamp) : Context := { c with now }

/-- What a record would be given for its time tells the same at two readings of the clock. -/
def KeepsTime (c : Context) (now later : Timestamp) : Prop :=
  ∀ v ∈ c.get? Reading.Field.createdAt.name, Timestamp.SameAt now later v

theorem keepsTime_of_isIso {c : Context}
    (h : (c.get? Reading.Field.createdAt.name).all Timestamp.isIso = true)
    (now later : Timestamp) : c.KeepsTime now later := by
  intro v hv
  rw [Option.mem_def.mp hv] at h
  exact Timestamp.sameAt_of_isIso h now later

end Context

/-- The emission as one at another reading of the clock. -/
def Emission.withClock (e : Emission) (now : Timestamp) : Emission :=
  { e with context := e.context.withClock now }

namespace Projection

/-- The projection as one at another reading of the clock. -/
def withClock (p : Projection) (now : Timestamp) : Projection :=
  { p with emissions := p.emissions.map (·.withClock now) }

/-- The records of a document under some rules tell the same times at two readings of the clock. -/
def KeepsTime (rules : List Rule) (now later : Timestamp) (document : Json) : Prop :=
  ∀ e ∈ (ofDocument rules (.empty now) document).emissions, e.context.KeepsTime now later

variable {c : Context} {later : Timestamp}

theorem takeTimestamp_of_keepsTime (h : c.KeepsTime c.now later) :
    Reading.Draft.takeTimestamp later c.draft.createdAt =
      Reading.Draft.takeTimestamp c.now c.draft.createdAt := by
  change Reading.Draft.takeTimestamp _ ((c.get? Reading.Field.createdAt.name).map .value) =
    Reading.Draft.takeTimestamp _ ((c.get? Reading.Field.createdAt.name).map .value)
  cases hvalue : c.get? Reading.Field.createdAt.name with
  | none => rfl
  | some v =>
    have hsame : Timestamp.ofSource later (.value v) = Timestamp.ofSource c.now (.value v) :=
      h v hvalue
    rw [Option.map_some, Reading.Draft.takeTimestamp, Reading.Draft.takeTimestamp, hsame]

theorem build_withClock (h : c.KeepsTime c.now later) : build (c.withClock later) = build c := by
  have hread : (c.withClock later).draft.read (c.withClock later).now = c.draft.read c.now := by
    change c.draft.read later = c.draft.read c.now
    rw [Reading.Draft.read, Reading.Draft.read, takeTimestamp_of_keepsTime h]
  rw [build, build, hread]
  rfl

theorem Check.recordContext?_withClock (k : Check) :
    k.recordContext? (c.withClock later) = (k.recordContext? c).map (·.withClock later) := by
  unfold recordContext?
  split <;> rfl

theorem Check.now_of_recordContext? {k : Check} {recorded : Context}
    (h : k.recordContext? c = some recorded) : recorded.now = c.now := by
  unfold recordContext? at h
  split at h
  · cases h
    rfl
  · cases h

theorem Check.run_withClock {k : Check} (hpassed : (k.run c).error = none)
    (htimes : ∀ e ∈ (k.run c).emissions, e.context.KeepsTime c.now later) :
    k.run (c.withClock later) = (k.run c).withClock later := by
  unfold Check.run failure? emission? at hpassed htimes ⊢
  rw [k.recordContext?_withClock]
  cases hrecord : k.recordContext? c with
  | none =>
    cases hcause : k.test.cause? <;> rfl
  | some recorded =>
    rw [hrecord] at hpassed htimes
    dsimp only [Option.map_some] at hpassed htimes ⊢
    cases hbuild : build recorded with
    | error error =>
      rw [hbuild] at hpassed
      cases hpassed
    | ok reading =>
      rw [hbuild] at htimes
      have hkeeps := htimes ⟨recorded, reading⟩ List.mem_cons_self
      rw [← Check.now_of_recordContext? hrecord] at hkeeps
      rw [build_withClock hkeeps, hbuild]
      rfl

/-- One check after the other does the same by the other clock, as long as all pass. -/
theorem runChecks_withClock {ks : List Check} (hpassed : (runChecks c ks).error = none)
    (htimes : ∀ e ∈ (runChecks c ks).emissions, e.context.KeepsTime c.now later) :
    runChecks (c.withClock later) ks = (runChecks c ks).withClock later := by
  induction ks with
  | nil => rfl
  | cons k ks ih =>
    rw [runChecks] at hpassed htimes ⊢
    obtain ⟨hfirst, hrest⟩ := error_andThen.mp hpassed
    have hemissions : ((k.run c).andThen (runChecks c ks)).emissions =
        (k.run c).emissions ++ (runChecks c ks).emissions := by
      rw [andThen, hfirst]
    rw [hemissions, List.forall_mem_append] at htimes
    rw [runChecks, Check.run_withClock hfirst htimes.1, ih hrest htimes.2]
    unfold withClock andThen
    rw [hfirst]
    simp

/-- A projection that goes through does the same at another reading of the clock if its records tell
the same times. -/
theorem ofDocument_withClock {rules : List Rule} {document : Json}
    (hpassed : (ofDocument rules c document).error = none)
    (htimes : ∀ e ∈ (ofDocument rules c document).emissions, e.context.KeepsTime c.now later) :
    ofDocument rules (c.withClock later) document =
      (ofDocument rules c document).withClock later := by
  rw [ofDocument_eq_runChecks] at hpassed htimes ⊢
  rw [ofDocument_eq_runChecks]
  exact runChecks_withClock hpassed htimes

end Projection

end FeedMerge
