import Wali.ParseSyscalls

/-!
The merge of strace summaries: the list does not depend on the order of the
files or of the set, and what a merge that fails leaves of the old list.
-/

namespace Wali.TraceMerge

open Wali.CanonicalOrder
open Wali.InsertionDict
open Wali.ParseSyscalls
open Wali.PythonText
open Wali.RunOutcome
open Wali.RunOutcome.Outcome
open Wali.SyscallDesc

/-- A summary with two rules, between them rows that end in a known name. -/
def WellFormed (content : Text) : Prop :=
  ∃ rows, Summary (readlines content) rows ∧ ∀ row ∈ rows, ∃ x, LastField row x ∧ Known x

theorem LastField.unique {row x y : Text} (hx : LastField row x) (hy : LastField row y) :
    x = y := by
  have hlast := hx.getLast?_split
  rw [hy.getLast?_split] at hlast
  exact (Option.some.inj hlast).symm

theorem wellFormed_iff {content : Text} :
    WellFormed content ↔ Readable content ∧ ∀ x, Occurs content x → Known x := by
  constructor
  · rintro ⟨rows, hrows, hnames⟩
    refine ⟨⟨rows, hrows, fun row hrow => ?_⟩, ?_⟩
    · obtain ⟨x, hx, _⟩ := hnames row hrow
      exact ⟨x, hx⟩
    · rintro x ⟨rows', row, hrows', hrow, hfield⟩
      cases hrows.unique hrows'
      obtain ⟨y, hy, hknown⟩ := hnames row hrow
      rw [LastField.unique hfield hy]
      exact hknown
  · rintro ⟨⟨rows, hrows, hfields⟩, hknown⟩
    refine ⟨rows, hrows, fun row hrow => ?_⟩
    obtain ⟨x, hx⟩ := hfields row hrow
    exact ⟨x, hx, hknown x ⟨rows, row, hrows, hrow, hx⟩⟩

/-- The entries of a list made from the given files. -/
structure Merged (files : List Text) (entries : List ListEntry) : Prop where
  increasing : entries.Pairwise fun entry entry' => entry.nr < entry'.nr
  name_iff : ∀ x, x ∈ entries.map ListEntry.name ↔ ∃ content ∈ files, Occurs content x
  numbered : ∀ entry ∈ entries, syscallDesc.get? entry.nr = some (entry.name, entry.desc)

variable {order : SetOrder Text} {files files' : List Text} {previous : Option Text}
  {entries entries' : List ListEntry}

theorem merged_of_compiled {added : List Text} (hadded : syscallsAdded files = returns added)
    (hentries : compiledSyscallDesc (order.iterate added) = returns entries) :
    Merged files entries where
  increasing := pairwise_compiledSyscallDesc (order.nodup_iterate added) hentries
  name_iff x := by
    rw [(names_of_compiledSyscallDesc hentries).mem_iff, order.mem_iterate,
      mem_syscallsAdded_iff hadded]
  numbered _ hentry := get?_of_compiledSyscallDesc hentries hentry

/-- Two entries of one name have the number that `syscall_nrs` gives it. -/
theorem entry_unique {entry entry' : ListEntry}
    (h : syscallDesc.get? entry.nr = some (entry.name, entry.desc))
    (h' : syscallDesc.get? entry'.nr = some (entry'.name, entry'.desc))
    (hname : entry.name = entry'.name) : entry = entry' := by
  have hnr := syscallNrs_get?_eq_some_iff.mpr ⟨_, h⟩
  have hnr' := syscallNrs_get?_eq_some_iff.mpr ⟨_, h'⟩
  rw [hname, hnr'] at hnr
  rcases entry with ⟨nr, name, desc⟩
  rcases entry' with ⟨nr', name', desc'⟩
  obtain rfl : nr' = nr := Option.some.inj hnr
  obtain rfl : name = name' := hname
  rw [h'] at h
  cases h
  rfl

theorem Merged.subset (h : Merged files entries) (h' : Merged files' entries')
    (hsubset : ∀ content ∈ files, content ∈ files') {entry : ListEntry}
    (hentry : entry ∈ entries) : entry ∈ entries' := by
  obtain ⟨content, hcontent, hx⟩ := (h.name_iff entry.name).mp (List.mem_map_of_mem hentry)
  obtain ⟨entry', hentry', hname⟩ :=
    List.mem_map.mp ((h'.name_iff entry.name).mpr ⟨content, hsubset content hcontent, hx⟩)
  rw [entry_unique (h.numbered entry hentry) (h'.numbered entry' hentry') hname.symm]
  exact hentry'

theorem Merged.unique (h : Merged files entries) (h' : Merged files' entries')
    (hfiles : ∀ content, content ∈ files ↔ content ∈ files') : entries = entries' :=
  eq_of_pairwise_lt h.increasing h'.increasing fun _ =>
    ⟨h.subset h' fun content => (hfiles content).mp,
      h'.subset h fun content => (hfiles content).mpr⟩

theorem mem_iff_of_merged (h : Merged files entries) (entry : ListEntry) :
    entry ∈ entries ↔ syscallDesc.get? entry.nr = some (entry.name, entry.desc) ∧
      ∃ content ∈ files, Occurs content entry.name := by
  rw [← h.name_iff]
  constructor
  · exact fun hentry => ⟨h.numbered entry hentry, List.mem_map_of_mem hentry⟩
  · rintro ⟨hnumbered, hname⟩
    obtain ⟨entry', hentry', hname'⟩ := List.mem_map.mp hname
    rwa [entry_unique hnumbered (h.numbered entry' hentry') hname'.symm]

/-- The lines of a list, none in an empty file. -/
def listLines (text : Text) : List Text := if text = [] then [] else text.splitOn '\n'

theorem line_eq (entry : ListEntry) :
    entry.line = natText entry.nr ++ ',' :: (entry.name ++ ',' :: entry.desc) := by
  simp [ListEntry.line, join, List.intercalate_cons_cons]

theorem newline_not_mem_line {entry : ListEntry}
    (h : syscallDesc.get? entry.nr = some (entry.name, entry.desc)) : '\n' ∉ entry.line := by
  obtain ⟨_, hname, hdesc⟩ := plain_of_get? h
  have hnr : '\n' ∉ natText entry.nr := fun hmem =>
    absurd (isDigit_of_mem_natText hmem) (by decide)
  simp [line_eq, hnr, hname, hdesc]

theorem listLines_listText
    (h : ∀ entry ∈ entries, syscallDesc.get? entry.nr = some (entry.name, entry.desc)) :
    listLines (listText entries) = entries.map ListEntry.line := by
  rcases entries with _ | ⟨first, rest⟩
  · rfl
  · have hline : ∀ line ∈ (first :: rest).map ListEntry.line, '\n' ∉ line := by
      intro line hmem
      obtain ⟨entry, hentry, rfl⟩ := List.mem_map.mp hmem
      exact newline_not_mem_line (h entry hentry)
    have hsplit : (listText (first :: rest)).splitOn '\n' =
        (first :: rest).map ListEntry.line :=
      List.splitOn_intercalate '\n' hline (List.cons_ne_nil _ _)
    have hne : listText (first :: rest) ≠ [] := by
      intro hnil
      rw [hnil, List.splitOn_nil, List.map_cons, List.cons.injEq] at hsplit
      simp [line_eq] at hsplit
    rw [listLines, if_neg hne, hsplit]

theorem exists_merged (order : SetOrder Text) (previous : Option Text)
    (h : ∀ content ∈ files, WellFormed content) :
    ∃ entries, Merged files entries ∧
      main order files previous = ⟨returns (), some (listText entries)⟩ := by
  obtain ⟨added, hadded⟩ := finishes_syscallsAdded_iff.mpr fun content hcontent =>
    (wellFormed_iff.mp (h content hcontent)).1
  have hknown : ∀ x ∈ order.iterate added, Known x := by
    intro x hx
    obtain ⟨content, hcontent, hoccurs⟩ :=
      (mem_syscallsAdded_iff hadded).mp (order.mem_iterate.mp hx)
    exact (wellFormed_iff.mp (h content hcontent)).2 x hoccurs
  obtain ⟨entries, hentries⟩ := finishes_compiledSyscallDesc_iff.mpr hknown
  refine ⟨entries, merged_of_compiled hadded hentries, ?_⟩
  simp only [main, hadded, hentries]

/-- The lines of the list that a merge of well-formed summaries writes. -/
theorem merged_list_canonical (order : SetOrder Text) (files : List Text)
    (previous : Option Text) (h : ∀ content ∈ files, WellFormed content) :
    ∃ (text : Text) (entries : List ListEntry),
      main order files previous = ⟨returns (), some text⟩ ∧
      listLines text = entries.map (fun entry =>
        natText entry.nr ++ ',' :: (entry.name ++ ',' :: entry.desc)) ∧
      (entries.Pairwise fun entry entry' => entry.nr < entry'.nr) ∧
      (∀ x, x ∈ entries.map ListEntry.name ↔ ∃ content ∈ files, Occurs content x) ∧
      (entries.map ListEntry.name).Nodup ∧
      (∀ entry ∈ entries, syscallDesc.get? entry.nr = some (entry.name, entry.desc)) ∧
      ∀ (order' : SetOrder Text) (files' : List Text), files'.Perm files →
        main order' files' previous = ⟨returns (), some text⟩ := by
  obtain ⟨entries, hmerged, hmain⟩ := exists_merged order previous h
  refine ⟨listText entries, entries, hmain, ?_, hmerged.increasing, hmerged.name_iff, ?_,
    hmerged.numbered, ?_⟩
  · rw [listLines_listText hmerged.numbered]
    exact List.map_congr_left fun entry _ => line_eq entry
  · refine List.Nodup.map_on ?_ (hmerged.increasing.imp fun hlt heq => ?_)
    · intro entry hentry entry' hentry' hname
      exact entry_unique (hmerged.numbered entry hentry) (hmerged.numbered entry' hentry') hname
    · rw [heq] at hlt
      exact lt_irrefl _ hlt
  · intro order' files' hperm
    have h' : ∀ content ∈ files', WellFormed content := fun content hcontent =>
      h content (hperm.mem_iff.mp hcontent)
    obtain ⟨entries', hmerged', hmain'⟩ := exists_merged order' previous h'
    rw [hmain', hmerged'.unique hmerged fun content => hperm.mem_iff]

theorem get?_of_mem {nr : Nat} {name desc : String}
    (h : (nr, name, desc) ∈ syscallDescEntries) :
    syscallDesc.get? nr = some (name.toList, desc.toList) := by
  refine Dict.get?_eq_some_iff.mpr ?_
  rw [entries_syscallDesc]
  exact List.mem_map_of_mem h

theorem known_of_mem {nr : Nat} {name desc : String}
    (h : (nr, name, desc) ∈ syscallDescEntries) : Known name.toList := by
  exact ⟨nr, desc.toList, get?_of_mem h⟩

def sampleTrace : Text :=
  "calls errors syscall\n----- ----- -----\n 7 write\n 4 1 read\n----- ----- -----\n11 total\n"

theorem wellFormed_sampleTrace : WellFormed sampleTrace := by
  refine ⟨[" 7 write\n".toList, " 4 1 read\n".toList],
    summary_iff.mpr ⟨1, 4, by decide, by decide⟩, ?_⟩
  intro row hrow
  simp only [List.mem_cons, List.not_mem_nil, or_false] at hrow
  rcases hrow with rfl | rfl
  · have hwrite : syscallDescEntries[1]? = some (1, "write", "Write to file") := rfl
    exact ⟨"write".toList, lastField_split_eq_returns_iff.mp (by decide),
      known_of_mem (List.mem_of_getElem? hwrite)⟩
  · have hread : syscallDescEntries[0]? = some (0, "read", "Read from file") := rfl
    exact ⟨"read".toList, lastField_split_eq_returns_iff.mp (by decide),
      known_of_mem (List.mem_of_getElem? hread)⟩

theorem occurs_sampleTrace_iff {x : Text} :
    Occurs sampleTrace x ↔ x = "write" ∨ x = "read" := by
  have hrows : Summary (readlines sampleTrace) [" 7 write\n".toList, " 4 1 read\n".toList] :=
    summary_iff.mpr ⟨1, 4, by decide, by decide⟩
  have hwrite : LastField " 7 write\n" "write" :=
    lastField_split_eq_returns_iff.mp (by decide)
  have hread : LastField " 4 1 read\n" "read" :=
    lastField_split_eq_returns_iff.mp (by decide)
  constructor
  · rintro ⟨rows, row, hrows', hrow, hx⟩
    rw [hrows'.unique hrows, List.mem_pair] at hrow
    rcases hrow with rfl | rfl
    · exact .inl (LastField.unique hx hwrite)
    · exact .inr (LastField.unique hx hread)
  · rintro (rfl | rfl)
    · exact ⟨_, _, hrows, List.mem_cons_self, hwrite⟩
    · exact ⟨_, _, hrows, List.mem_cons_of_mem _ (List.mem_singleton_self _), hread⟩

theorem merged_sampleTrace :
    Merged [sampleTrace] [⟨0, "read", "Read from file"⟩, ⟨1, "write", "Write to file"⟩] where
  increasing := by decide
  name_iff x := by
    simp only [List.map_cons, List.map_nil, List.mem_pair, List.mem_singleton, exists_eq_left,
      occurs_sampleTrace_iff]
    exact or_comm
  numbered := by
    have hread : syscallDescEntries[0]? = some (0, "read", "Read from file") := rfl
    have hwrite : syscallDescEntries[1]? = some (1, "write", "Write to file") := rfl
    intro entry hentry
    rcases List.mem_pair.mp hentry with rfl | rfl
    · exact get?_of_mem (List.mem_of_getElem? hread)
    · exact get?_of_mem (List.mem_of_getElem? hwrite)

theorem sampleTrace_merged :
    WellFormed sampleTrace ∧
      ∃ text, main (SetOrder.insertion Text) [sampleTrace] none = ⟨returns (), some text⟩ ∧
        listLines text = ["0,read,Read from file".toList, "1,write,Write to file".toList] := by
  refine ⟨wellFormed_sampleTrace, ?_⟩
  obtain ⟨text, entries, hmain, hlines, hincreasing, hnames, _, hnumbered, _⟩ :=
    merged_list_canonical (SetOrder.insertion Text) [sampleTrace] none
      (by simp [wellFormed_sampleTrace])
  have hentries : entries = [⟨0, "read", "Read from file"⟩, ⟨1, "write", "Write to file"⟩] :=
    Merged.unique ⟨hincreasing, hnames, hnumbered⟩ merged_sampleTrace fun _ => Iff.rfl
  refine ⟨text, hmain, ?_⟩
  rw [hlines, hentries]
  decide

section Failures

theorem syscallsAdded_ne_diverges (files : List Text) : syscallsAdded files ≠ diverges := by
  refine bind_ne_diverges (forEach_ne_diverges (fun content => ?_) files) fun _ => by simp
  refine bind_ne_diverges ?_ (forEach_ne_diverges fun x => ofOption_ne_diverges _ _)
  simp only [traceOf]
  split <;> simp

theorem compiledSyscallDesc_ne_diverges (names : List Text) :
    compiledSyscallDesc names ≠ diverges := by
  refine bind_ne_diverges ?_ (forEach_ne_diverges fun x => ?_)
  · refine bind_ne_diverges (forEach_ne_diverges (fun x => ?_) names) fun _ => by simp
    exact bind_ne_diverges (ofOption_ne_diverges _ _) fun _ => by simp
  · refine bind_ne_diverges (ofOption_ne_diverges _ _) fun _ => ?_
    exact bind_ne_diverges (ofOption_ne_diverges _ _) fun _ => by simp

theorem raises_of_not_finishes {α : Type} {x : Outcome PyErr α} (hx : x ≠ diverges)
    (h : ¬ x.Finishes) : ∃ error, x = raises error := by
  cases x with
  | returns a => exact absurd (finishes_returns a) h
  | raises error => exact ⟨error, rfl⟩
  | diverges => exact absurd rfl hx

/-- A failure while the files are read leaves the list alone. -/
theorem main_of_unreadable (order : SetOrder Text) (previous : Option Text)
    {content : Text} (hcontent : content ∈ files) (h : ¬ Readable content) :
    ∃ error, main order files previous = ⟨raises error, previous⟩ := by
  obtain ⟨error, herror⟩ := raises_of_not_finishes (syscallsAdded_ne_diverges files)
    fun hfinishes => h (finishes_syscallsAdded_iff.mp hfinishes content hcontent)
  exact ⟨error, by simp only [main, herror]⟩

/-- A name without a number is met when the list is already empty. -/
theorem main_of_unknown (order : SetOrder Text) (previous : Option Text)
    (hreadable : ∀ content ∈ files, Readable content) {content x : Text}
    (hcontent : content ∈ files) (hx : Occurs content x) (h : ¬ Known x) :
    ∃ error, main order files previous = ⟨raises error, some []⟩ := by
  obtain ⟨added, hadded⟩ := finishes_syscallsAdded_iff.mpr hreadable
  have hmem : x ∈ order.iterate added :=
    order.mem_iterate.mpr ((mem_syscallsAdded_iff hadded).mpr ⟨content, hcontent, hx⟩)
  obtain ⟨error, herror⟩ :=
    raises_of_not_finishes (compiledSyscallDesc_ne_diverges (order.iterate added))
      fun hfinishes => h (finishes_compiledSyscallDesc_iff.mp hfinishes x hmem)
  exact ⟨error, by simp only [main, hadded, herror]⟩

theorem listFile_of_raises {error : PyErr}
    (h : (main order files previous).outcome = raises error) :
    (main order files previous).listFile = previous ∨
      (main order files previous).listFile = some [] := by
  unfold main at h ⊢
  split at h
  · exact .inl rfl
  · cases h
  · split at h
    · cases h
    · exact .inr rfl
    · cases h

theorem failed_merge_keeps_list_iff (order : SetOrder Text) (files : List Text)
    (previous : Option Text) :
    ((∃ error, (main order files previous).outcome = raises error) →
        (main order files previous).listFile = previous) ↔
      (∃ content ∈ files, ¬ Readable content) ∨
        (∀ content ∈ files, ∀ x, Occurs content x → Known x) ∨ previous = some [] := by
  constructor
  · intro hkeeps
    by_contra hcondition
    push Not at hcondition
    obtain ⟨hreadable, ⟨content, hcontent, x, hx, hunknown⟩, hprevious⟩ := hcondition
    obtain ⟨error, hmain⟩ := main_of_unknown order previous hreadable hcontent hx hunknown
    rw [hmain] at hkeeps
    exact hprevious (hkeeps ⟨error, rfl⟩).symm
  · rintro (⟨content, hcontent, hunreadable⟩ | hknown | rfl)
    · obtain ⟨error, hmain⟩ := main_of_unreadable order previous hcontent hunreadable
      rw [hmain]
      exact fun _ => rfl
    · rintro ⟨error, hraises⟩
      by_cases hreadable : ∀ content ∈ files, Readable content
      · obtain ⟨entries, _, hmain⟩ := exists_merged order previous fun content hcontent =>
          wellFormed_iff.mpr ⟨hreadable content hcontent, hknown content hcontent⟩
        rw [hmain] at hraises
        cases hraises
      · push Not at hreadable
        obtain ⟨content, hcontent, hunreadable⟩ := hreadable
        obtain ⟨error', hmain⟩ := main_of_unreadable order previous hcontent hunreadable
        rw [hmain]
    · rintro ⟨error, hraises⟩
      rcases listFile_of_raises hraises with hfile | hfile
      · exact hfile
      · exact hfile

/-- One name that `syscall_desc` lacks, as strace writes it for a newer call. -/
def unknownTrace : Text := "-----\n 5 openat2\n-----\n"

theorem readable_unknownTrace : Readable unknownTrace := by
  refine ⟨[" 5 openat2\n".toList], summary_iff.mpr ⟨0, 2, by decide, by decide⟩, ?_⟩
  intro row hrow
  rw [List.mem_singleton.mp hrow]
  exact ⟨"openat2".toList, lastField_split_eq_returns_iff.mp (by decide)⟩

theorem not_known_openat2 : ¬ Known "openat2" := by
  rintro ⟨nr, desc, hdesc⟩
  have hmem := Dict.get?_eq_some_iff.mp hdesc
  rw [entries_syscallDesc, List.mem_map] at hmem
  obtain ⟨⟨nr', name, desc'⟩, hentry, heq⟩ := hmem
  have hname : name = "openat2" :=
    String.toList_inj.mp (congrArg (fun entry => entry.2.1) heq)
  have hnone : "openat2" ∉ syscallDescEntries.map (·.2.1) := by decide +kernel
  exact hnone (hname ▸ List.mem_map_of_mem hentry)

/-- The old list is lost. -/
theorem unknownTrace_empties_list :
    (∃ error, (main (SetOrder.insertion Text) [unknownTrace] (some "0,read,".toList)).outcome =
        raises error) ∧
      (main (SetOrder.insertion Text) [unknownTrace] (some "0,read,".toList)).listFile ≠
        some "0,read,".toList := by
  have hoccurs : Occurs unknownTrace "openat2" :=
    ⟨[" 5 openat2\n".toList], _, summary_iff.mpr ⟨0, 2, by decide, by decide⟩,
      List.mem_singleton_self _, lastField_split_eq_returns_iff.mp (by decide)⟩
  obtain ⟨error, hmain⟩ := main_of_unknown (SetOrder.insertion Text) (some "0,read,".toList)
    (by simp [readable_unknownTrace]) (List.mem_singleton_self _) hoccurs not_known_openat2
  rw [hmain]
  refine ⟨⟨error, rfl⟩, ?_⟩
  show (some [] : Option Text) ≠ some "0,read,".toList
  decide

end Failures

end Wali.TraceMerge
