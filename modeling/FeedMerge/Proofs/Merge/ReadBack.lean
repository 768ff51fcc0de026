import FeedMerge.Proofs.Json.RoundTrip
import FeedMerge.Proofs.Merge.Outcome

/-!
# Summaries are read back

The file that `writeSummaries` leaves at a path holds one document, and that document is read as it
was written: the bytes are UTF-8 without a carriage return, so the text is taken as it stands, and
the text of every summary is that of a value that can be written (`Legible.isWritable`).

A path is not the text that it was given as. A text that ends in a slash, or in a slash and a dot,
is that of a directory, but a path does not keep that ending. So such a text leads to a file where
summaries are written to it, and to none where they are read from it (`readAs`).
-/

namespace FeedMerge

namespace Summary

/-- The integers of a summary. -/
def integers (s : Summary) : List Int :=
  [s.companyId, s.deviceId, s.temperatureCount, s.humidityCount]

/-- The averages of a summary, if there are any. -/
def averages (s : Summary) : List Float := s.averageTemperature.toList ++ s.averageHumidity.toList

theorem isWritable_averageJson {average : Option Float}
    (h : ∀ x ∈ average.toList, x.isFinite = true → Json.ReadsBack x) :
    (averageJson average).IsWritable := by
  cases average with
  | none => trivial
  | some x => exact h x (List.mem_singleton_self x)

theorem isWritable_toJson {s : Summary} (hintegers : ∀ n ∈ s.integers, Json.IsWithinLimit n)
    (haverages : ∀ x ∈ s.averages, x.isFinite = true → Json.ReadsBack x) :
    s.toJson.IsWritable := by
  have hnames : s.toFields.names.Nodup := by
    have hten : s.toFields.names = ["CompanyId", "CompanyName", "DeviceId", "DeviceName",
        "FirstReadingDtm", "LastReadingDtm", "TemperatureCount", "AverageTemperature",
        "HumidityCount", "AverageHumidity"] := rfl
    rw [hten]
    decide
  simp only [integers, List.forall_mem_cons] at hintegers
  obtain ⟨hcompany, hdevice, htemperature, hhumidity, -⟩ := hintegers
  have hfirst := isWritable_averageJson fun x hx => haverages x (List.mem_append_left _ hx)
  have hsecond := isWritable_averageJson fun x hx => haverages x (List.mem_append_right _ hx)
  exact ⟨hnames, hcompany, trivial, hdevice, trivial, trivial, trivial, htemperature, hfirst,
    hhumidity, hsecond, trivial⟩

end Summary

namespace Merge

variable {tree after : FileTree} {indent : Option Int} {path : Path} {summaries : List Summary}

/-- Summaries whose integers are within the limit, and whose finite averages are read back from
their texts. -/
structure Legible (summaries : List Summary) : Prop where
  integers : ∀ s ∈ summaries, ∀ n ∈ s.integers, Json.IsWithinLimit n
  averages : ∀ s ∈ summaries, ∀ x ∈ s.averages, x.isFinite = true → Json.ReadsBack x

theorem Legible.isWritable (h : Legible summaries) :
    (Json.array (summaries.map Summary.toJson)).IsWritable := by
  apply Json.areWritable_of_forall
  intro item hitem
  obtain ⟨s, hs, rfl⟩ := List.mem_map.mp hitem
  exact Summary.isWritable_toJson (h.integers s hs) (h.averages s hs)

/-- The text of a file of summaries is a document of them. -/
theorem ofBytes_fileText (h : Legible summaries) (indent : Option Int) :
    Document.ofBytes (fileText indent summaries).toUTF8 =
      .ok (.array (summaries.map Summary.toJson)) := by
  have htext : fileText indent summaries =
      .ofList (Json.writeValue { indent, ascii := false } 0
        (.array (summaries.map Summary.toJson)) ++ ['\n']) := by
    rw [fileText, Json.write, String.ofList_append]
  have hreturn : '\r' ∉ Json.writeValue { indent, ascii := false } 0
      (.array (summaries.map Summary.toJson)) ++ ['\n'] := by
    simp [Json.notMem_writeValue]
  have hends : Json.EndsValue ['\n'] := by
    intro c hc
    cases hc
    exact .inr (.inl rfl)
  rw [htext, Document.ofBytes_toUTF8 hreturn,
    Json.readChars_writeValue rfl h.isWritable hends rfl]
  rfl

/-- Wherever summaries were written, their text is found there. -/
theorem content_of_writeSummaries
    (hwrite : writeSummaries tree indent path summaries = (after, .ok ())) :
    after.content path = .ok (fileText indent summaries).toUTF8 := by
  obtain ⟨made, place, -, hlocate, hnode, -⟩ := FileTree.exists_place_of_replace hwrite
  rw [FileTree.content, hlocate]
  dsimp only
  rw [hnode, flatten_filePieces]

/-- What a text that names the path makes of the document there: a text that is too long as it
stands, or is that of a directory, leads to no file. -/
def readAs (name : String) (document : Json) : Except Error Json :=
  if FileTree.isLongPath name then .error (.file (.system .nameTooLong name none))
  else if Path.namesDirectory name then .error (.file (.system .notDirectory name none))
  else .ok document

theorem load_of_writeSummaries (h : Legible summaries)
    (hwrite : writeSummaries tree indent path summaries = (after, .ok ())) :
    load after path = .ok (.array (summaries.map Summary.toJson)) := by
  have hnameable := (FileTree.path_of_replace hwrite).1
  rw [load, FileTree.read, hnameable, content_of_writeSummaries hwrite]
  change (Document.ofBytes (fileText indent summaries).toUTF8).mapError _ = _
  rw [ofBytes_fileText h]
  rfl

theorem readNamed_of_writeSummaries {name : String} (h : Legible summaries)
    (hwrite : writeSummaries tree indent (.ofText name) summaries = (after, .ok ())) :
    documentOf (after.readNamed name) = readAs name (.array (summaries.map Summary.toJson)) := by
  obtain ⟨hnameable, hnames, -⟩ := FileTree.path_of_replace hwrite
  have hname : name ≠ "" := by
    rintro rfl
    exact hnames (by decide)
  rw [FileTree.readNamed, hnameable, FileTree.contentNamed, if_neg hname,
    content_of_writeSummaries hwrite, readAs]
  rw [if_pos rfl]
  dsimp only
  split
  · rfl
  · split
    · rfl
    · change (Document.ofBytes (fileText indent summaries).toUTF8).mapError _ = _
      rw [ofBytes_fileText h]
      rfl

/-- Summaries that were written to a path are read from there as they were, whatever their names
are and however their text is laid out. So they are through every text of that path, unless the
text is that of a directory, whose ending the path does not keep, or too long as it stands. -/
theorem summaries_read_back (h : Legible summaries)
    (hwrite : writeSummaries tree indent path summaries = (after, .ok ())) :
    load after path = .ok (.array (summaries.map Summary.toJson)) ∧
    ∀ name, Path.ofText name = path →
      documentOf (after.readNamed name) = readAs name (.array (summaries.map Summary.toJson)) := by
  refine ⟨load_of_writeSummaries h hwrite, ?_⟩
  rintro name rfl
  exact readNamed_of_writeSummaries h hwrite

/-- A summary with a name full of marks, an average, and one that is not a number. -/
def markedSummary : Summary where
  companyId := -7
  companyName := "\x7b\"a\": [1, \\\n\x01é"
  deviceId := 10000000000000000000000
  deviceName := ""
  firstReadingAt := ⟨.start, none⟩
  lastReadingAt := ⟨.start, none⟩
  temperatureCount := 3
  averageTemperature := some 22.5
  humidityCount := 0
  averageHumidity := some (0.0 / 0.0)

theorem legible_markedSummary : Legible [markedSummary] := by
  constructor
  · intro s hs
    cases List.mem_singleton.mp hs
    decide
  · intro s hs x hx hfinite
    cases List.mem_singleton.mp hs
    have haverages : x = 22.5 ∨ x = 0.0 / 0.0 := by
      simpa [Summary.averages, markedSummary] using hx
    rcases haverages with rfl | rfl
    · rfl
    · cases hfinite

theorem marked_summary_reads_back :
    ∃ after, writeSummaries (.withWorkingDirectory ["work"]) (some 2) (.ofText "new/out")
        [markedSummary] = (after, .ok ()) ∧
      load after (.ofText "new/out") = .ok (.array [markedSummary.toJson]) ∧
      documentOf (after.readNamed "new//out") = .ok (.array [markedSummary.toJson]) := by
  obtain ⟨after, hwrite⟩ : ∃ after, writeSummaries (.withWorkingDirectory ["work"]) (some 2)
      (.ofText "new/out") [markedSummary] = (after, .ok ()) := ⟨_, rfl⟩
  obtain ⟨hload, hnamed⟩ := summaries_read_back legible_markedSummary hwrite
  have hlong : FileTree.isLongPath "new//out" = false := by decide
  have hdirectory : Path.namesDirectory "new//out" = false := by decide
  refine ⟨after, hwrite, hload, ?_⟩
  rw [hnamed "new//out" (by decide), readAs, hlong, hdirectory]
  rfl

/-- A text that ends in a slash is taken for that of a file where it is written to, but not where it
is read from. -/
theorem not_read_back_from_slash :
    ¬ ∀ (tree after : FileTree) (indent : Option Int) (name : String) (summaries : List Summary),
      Legible summaries →
        writeSummaries tree indent (.ofText name) summaries = (after, .ok ()) →
        documentOf (after.readNamed name) = .ok (.array (summaries.map Summary.toJson)) := by
  intro hall
  have hlegible : Legible [] := ⟨by simp, by simp⟩
  obtain ⟨after, hwrite⟩ : ∃ after, writeSummaries (.withWorkingDirectory ["work"]) (some 2)
      (.ofText "out/") [] = (after, .ok ()) := ⟨_, rfl⟩
  have hread := hall _ _ _ _ _ hlegible hwrite
  rw [readNamed_of_writeSummaries hlegible hwrite] at hread
  have hrefused : readAs "out/" (.array []) =
      .error (.file (.system .notDirectory "out/" none)) := by
    rfl
  rw [List.map_nil, hrefused] at hread
  cases hread

end Merge

end FeedMerge
