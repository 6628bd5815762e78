import Wali.LineForms
import Wali.TraceMerge

/-!
`syscall_list.txt` read back: the calls of the merged summaries can be told from the file, and
nothing else can.
-/

namespace Wali.SyscallListFile

open Wali.CanonicalOrder
open Wali.InsertionDict
open Wali.LineForms
open Wali.ParseSyscalls
open Wali.PythonText
open Wali.RunOutcome
open Wali.RunOutcome.Outcome
open Wali.SyscallDesc
open Wali.TraceMerge

section Reading

/-- `nr,name,desc`, where the description may hold commas -/
def listForm : LineForm where
  head := []
  seps := [[','], [',']]
  tail := []

def readEntry : List Text → Option ListEntry
  | [nr, name, desc] => some ⟨numeralValue nr, name, desc⟩
  | _ => none

def readList (text : Text) : List ListEntry := (readLines listForm text).filterMap readEntry

end Reading

variable {order order' : SetOrder Text} {files files' : List Text}
  {previous previous' : Option Text} {entries : List ListEntry}

theorem readList_listText
    (h : ∀ entry ∈ entries, syscallDesc.get? entry.nr = some (entry.name, entry.desc)) :
    readList (listText entries) = entries := by
  have hline : ∀ entry ∈ entries,
      readLines listForm entry.line = [[natText entry.nr, entry.name, entry.desc]] := by
    intro entry hentry
    obtain ⟨hcomma, hname, hdesc⟩ := plain_of_get? (h entry hentry)
    have hdigit : ∀ c ∈ natText entry.nr, c.isDigit = true := fun c => isDigit_of_mem_natText
    have htext : entry.line = lineText listForm [natText entry.nr, entry.name, entry.desc] := by
      simp [ListEntry.line, join, lineText, listForm, fieldsText, List.intercalate_cons_cons]
    rw [htext]
    refine readLines_lineText (by decide) ?_ ?_
    · intro field hfield
      simp only [List.mem_cons, List.not_mem_nil, or_false] at hfield
      rcases hfield with rfl | rfl | rfl
      · exact fun hmem => absurd (hdigit _ hmem) (by decide)
      · exact hname
      · exact hdesc
    · refine ⟨List.cons_ne_nil _ _, fun c hc heq => ?_, List.cons_ne_nil _ _, fun c hc heq => ?_,
        trivial⟩
      · cases heq
        exact absurd (hdigit _ hc) (by decide)
      · cases heq
        exact hcomma hc
  have hlines : readLines listForm (listText entries) =
      entries.map fun entry => [natText entry.nr, entry.name, entry.desc] :=
    readLines_entries (by decide) hline
  rw [readList, hlines, List.filterMap_map]
  have hentry : readEntry ∘ (fun entry : ListEntry => [natText entry.nr, entry.name, entry.desc]) =
      some := by
    funext entry
    rw [Function.comp_apply, readEntry, numeralValue_natText]
  rw [hentry, List.filterMap_some]

/-- What is read from the file that a merge of well-formed summaries leaves: the calls that occur
in the summaries, in the order of their numbers. -/
theorem list_file_reads_back (order : SetOrder Text) (files : List Text) (previous : Option Text)
    (h : ∀ content ∈ files, WellFormed content) :
    ∃ text, main order files previous = ⟨returns (), some text⟩ ∧
      ((readList text).Pairwise fun entry entry' => entry.nr < entry'.nr) ∧
      ∀ entry, entry ∈ readList text ↔
        syscallDesc.get? entry.nr = some (entry.name, entry.desc) ∧
          ∃ content ∈ files, Occurs content entry.name := by
  obtain ⟨entries, hmerged, hmain⟩ := exists_merged order previous h
  refine ⟨listText entries, hmain, ?_⟩
  rw [readList_listText hmerged.numbered]
  exact ⟨hmerged.increasing, mem_iff_of_merged hmerged⟩

theorem sampleTrace_reads_back :
    ∃ text, main (SetOrder.insertion Text) [sampleTrace] none = ⟨returns (), some text⟩ ∧
      ⟨0, "read", "Read from file"⟩ ∈ readList text := by
  obtain ⟨text, hmain, _, hmem⟩ := list_file_reads_back (SetOrder.insertion Text) [sampleTrace] none
    fun content hcontent => List.mem_singleton.mp hcontent ▸ wellFormed_sampleTrace
  refine ⟨text, hmain, (hmem _).mpr ⟨?_, sampleTrace, List.mem_singleton_self _, ?_⟩⟩
  · have hread : syscallDescEntries[0]? = some (0, "read", "Read from file") := rfl
    exact get?_of_mem (List.mem_of_getElem? hread)
  · exact ⟨[" 7 write\n".toList, " 4 1 read\n".toList], " 4 1 read\n".toList,
      summary_iff.mpr ⟨1, 4, by decide, by decide⟩, by simp,
      lastField_split_eq_returns_iff.mp (by decide)⟩

/-- Two merges leave the same file if and only if the same calls occur in their summaries. -/
theorem same_list_iff (order order' : SetOrder Text) (previous previous' : Option Text)
    (h : ∀ content ∈ files, WellFormed content) (h' : ∀ content ∈ files', WellFormed content) :
    (main order files previous).listFile = (main order' files' previous').listFile ↔
      ∀ x, (∃ content ∈ files, Occurs content x) ↔ ∃ content ∈ files', Occurs content x := by
  obtain ⟨entries, hmerged, hmain⟩ := exists_merged order previous h
  obtain ⟨entries', hmerged', hmain'⟩ := exists_merged order' previous' h'
  have hread : listText entries = listText entries' ↔ entries = entries' := by
    refine ⟨fun heq => ?_, congrArg listText⟩
    rw [← readList_listText hmerged.numbered, heq, readList_listText hmerged'.numbered]
  rw [hmain, hmain', Option.some.injEq, hread]
  constructor
  · rintro rfl x
    rw [← hmerged.name_iff, ← hmerged'.name_iff]
  · intro hnames
    refine eq_of_pairwise_lt hmerged.increasing hmerged'.increasing fun entry => ?_
    rw [mem_iff_of_merged hmerged, mem_iff_of_merged hmerged', hnames]

theorem sampleTrace_twice :
    (main (SetOrder.insertion Text) [sampleTrace] none).listFile =
      (main (SetOrder.insertion Text) [sampleTrace, sampleTrace] (some [])).listFile := by
  refine (same_list_iff _ _ _ _ ?_ ?_).mpr fun x => by simp
  · exact fun content hcontent => List.mem_singleton.mp hcontent ▸ wellFormed_sampleTrace
  · intro content hcontent
    rcases List.mem_pair.mp hcontent with rfl | rfl <;> exact wellFormed_sampleTrace

end Wali.SyscallListFile
