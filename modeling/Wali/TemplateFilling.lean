import Mathlib.Data.List.Flatten
import Wali.ArrayExpansion
import Wali.MarkdownStubs
import Wali.ScalarTypes
import Wali.TextReplace
import Wali.WitStubs

/-!
The templates of `wali.wit` and `support.md`, filled by one `replace` after another:
no inserted text holds a stub that is replaced later.
-/

namespace Wali.TemplateFilling

open Wali.ArrayExpansion
open Wali.InsertionDict
open Wali.MarkdownStubs
open Wali.PythonText
open Wali.RunOutcome.Outcome
open Wali.ScalarTypes
open Wali.SyscallTable
open Wali.TextReplace
open Wali.TypeTemplates
open Wali.WitStubs

section Program

/-- `fill_temp` of `gen_wit_stubs`, in front of the expansion of the arrays -/
def fillWit (template : Text) (wit : WitInterface) : Text :=
  replaceText "[[SYSCALLS_STUB]]" (join "\n" wit.scIf)
    (replaceText "[[TYPES_STUB]]" (join "\n" wit.typeIf) template)

/-- The text that is written to `wali.wit`. -/
def witText (template : Text) (wit : WitInterface) : Text := expandArrays (fillWit template wit)

/-- `s.replace(c, '\\' + c)` -/
def escape (c : Char) (s : Text) : Text := replaceText [c] ['\\', c] s

/-- `unsupp_list` -/
def unsuppList (report : SupportReport) : List Text :=
  report.unsupported.map fun x => ("* " : Text) ++ x

/-- The text in place of `[[SUPPORTED_SYSCALLS_STUB]]`; `toMarkdown` is the method of the
data frame. -/
def supportedText (toMarkdown : List SupportRow → Text) (report : SupportReport) : Text :=
  escape '_' (escape '*' (toMarkdown report.supported))

/-- The text in place of `[[UNSUPPORTED_SYSCALLS_STUB]]`. -/
def unsupportedText (report : SupportReport) : Text := escape '_' (join "\n" (unsuppList report))

/-- The text that is written to `support.md`. -/
def supportText (toMarkdown : List SupportRow → Text) (template : Text)
    (report : SupportReport) : Text :=
  replaceText "[[UNSUPPORTED_SYSCALLS_STUB]]" (unsupportedText report)
    (replaceText "[[SUPPORTED_SYSCALLS_STUB]]" (supportedText toMarkdown report)
      (replaceText "[[NUM_SUPPORTED_SYSCALLS_STUB]]" report.numSupported template))

end Program

section Slots

inductive WitSlot
  | types
  | syscalls
  deriving DecidableEq

def WitSlot.mark : WitSlot → Text
  | types => "[[TYPES_STUB]]"
  | syscalls => "[[SYSCALLS_STUB]]"

def WitSlot.text (wit : WitInterface) : WitSlot → Text
  | types => join "\n" wit.typeIf
  | syscalls => join "\n" wit.scIf

inductive SupportSlot
  | num
  | supported
  | unsupported
  deriving DecidableEq

def SupportSlot.mark : SupportSlot → Text
  | num => "[[NUM_SUPPORTED_SYSCALLS_STUB]]"
  | supported => "[[SUPPORTED_SYSCALLS_STUB]]"
  | unsupported => "[[UNSUPPORTED_SYSCALLS_STUB]]"

def SupportSlot.text (toMarkdown : List SupportRow → Text) (report : SupportReport) :
    SupportSlot → Text
  | num => report.numSupported
  | supported => supportedText toMarkdown report
  | unsupported => unsupportedText report

end Slots

section Escapes

variable {c e : Char}

theorem escape_cons (c d : Char) (s : Text) :
    escape c (d :: s) = (if d = c then ['\\', c] else [d]) ++ escape c s := by
  unfold escape
  rw [replaceText_singleton, replaceText_singleton, List.flatMap_cons]

theorem head_escape (hc : c ≠ '\\') (s : Text) : (escape c s).head? ≠ some c := by
  cases s with
  | nil => rintro ⟨⟩
  | cons d s =>
      rw [escape_cons]
      split
      · exact fun h => hc (Option.some.inj h).symm
      · next hd => exact fun h => hd (Option.some.inj h)

/-- Every `c` of an escaped text stands behind a backslash. -/
theorem not_infix_escape (hc : c ≠ '\\') (he : e ≠ '\\') (s : Text) :
    ¬ [e, c] <:+: escape c s := by
  have hhead : ∀ d t, ¬ [e, c] <+: d :: escape c t := by
    rintro d t ⟨u, hu⟩
    refine head_escape hc t ?_
    rw [← (List.cons.inj hu).2]
    rfl
  induction s with
  | nil =>
      intro h
      cases List.infix_nil.mp h
  | cons d s ih =>
      rw [escape_cons]
      split
      · intro h
        rcases List.infix_cons_iff.mp h with h | h
        · exact he (List.cons_prefix_cons.mp h).1
        · rcases List.infix_cons_iff.mp h with h | h
          · exact hhead c s h
          · exact ih h
      · intro h
        rcases List.infix_cons_iff.mp h with h | h
        · exact hhead d s h
        · exact ih h

/-- Taking the backslash away in front of every `c` gives the text back. -/
theorem unescape_escape (hc : c ≠ '\\') (s : Text) :
    replaceText ['\\', c] [c] (escape c s) = s := by
  induction s with
  | nil => rfl
  | cons d s ih =>
      rw [escape_cons]
      split
      · next hd =>
          subst hd
          rw [replaceText_mark (by simp), ih]
          rfl
      · have hnot : ¬ ['\\', c] <+: d :: escape c s := by
          rintro ⟨t, ht⟩
          refine head_escape hc s ?_
          rw [← (List.cons.inj ht).2]
          rfl
        rw [List.cons_append, List.nil_append, replaceText_cons_of_not_prefix hnot, ih]

end Escapes

section WitTemplate

variable {T : Templates} {rows : List (SyscallRow Cell)} {recordContent : Text}
  {wit : WitInterface} {layout : Layout WitSlot}

theorem score_not_mem_compValue (v : Text) : '_' ∉ compValue v := by
  unfold compValue
  split
  · exact not_mem_replaceChar (by decide) v
  · rw [rep_eq_kebab]
    exact score_not_mem_kebab v

theorem score_not_mem_compTypes {entry : Text × Text} (h : entry ∈ (compTypes T).entries) :
    '_' ∉ entry.1 ∧ '_' ∉ entry.2 := by
  rcases entry_of_compTypes h with rfl | ⟨origin, _, rfl⟩
  · exact ⟨by decide, by decide⟩
  · refine ⟨?_, score_not_mem_compValue origin.2⟩
    rw [compEntry, rep_eq_kebab]
    exact score_not_mem_kebab origin.1

theorem score_not_mem_typeLine {entry : Text × Text} (hkey : '_' ∉ entry.1)
    (hvalue : '_' ∉ entry.2) : '_' ∉ WitInterface.typeLine entry := by
  have htype : '_' ∉ "\ttype ".toList := by decide
  have hequals : '_' ∉ " = ".toList := by decide
  have hend : '_' ∉ ";".toList := by decide
  unfold WitInterface.typeLine
  simp only [List.mem_append, not_or]
  exact ⟨⟨⟨⟨htype, hkey⟩, hequals⟩, hvalue⟩, hend⟩

theorem score_not_mem_types (hwit : wit.compTypes = compTypes T) :
    '_' ∉ WitSlot.text wit .types := by
  intro h
  rcases mem_of_mem_join h with h | ⟨line, hline, h⟩
  · exact absurd h (by decide)
  unfold WitInterface.typeIf at hline
  rw [List.mem_cons, List.mem_append, List.mem_singleton] at hline
  rcases hline with hline | hline | hline
  · rw [hline] at h
    exact absurd h (by decide)
  · obtain ⟨entry, hentry, rfl⟩ := List.mem_map.mp hline
    rw [hwit] at hentry
    obtain ⟨hkey, hvalue⟩ := score_not_mem_compTypes hentry
    exact score_not_mem_typeLine hkey hvalue h
  · rw [hline] at h
    exact absurd h (by decide)

/-- Each stub of the template is replaced where it stands, and nothing else. -/
theorem fillWit_fill (hmarked : layout.Marked WitSlot.mark)
    (hwit : genWitStubs T recordContent rows = returns wit) :
    fillWit (layout.fill WitSlot.mark) wit = layout.fill (WitSlot.text wit) := by
  obtain ⟨_, _, htypes, _⟩ := genWitStubs_eq_returns_iff.mp hwit
  have hlater : ¬ WitSlot.syscalls.mark <:+: WitSlot.text wit .types :=
    fun h => score_not_mem_types htypes (h.subset (by decide))
  have hfill := @foldl_replaceText _ layout WitSlot.mark (WitSlot.text wit) WitSlot.mark _ hmarked
    [.types, .syscalls] (by decide) (by simpa using hlater) (fun _ _ => rfl)
    (by rintro _ _ (_ | _) hg <;> simp at hg)
  have hall : ∀ g : WitSlot, g ∈ [WitSlot.types, .syscalls] := by rintro (_ | _) <;> decide
  simp only [hall, if_true] at hfill
  exact hfill

end WitTemplate

section SupportTemplate

variable {toMarkdown : List SupportRow → Text} {layout : Layout SupportSlot}

/-- The stubs of `support.md` are replaced where they stand, whatever the names in the
table and of the kernel are: in escaped text no stub can stand. -/
theorem supportText_fill (hmarked : layout.Marked SupportSlot.mark) (report : SupportReport) :
    supportText toMarkdown (layout.fill SupportSlot.mark) report =
      layout.fill (SupportSlot.text toMarkdown report) := by
  have hnum : ∀ g : SupportSlot, ¬ g.mark <:+: SupportSlot.text toMarkdown report .num := by
    intro g h
    have hbracket : '[' ∈ g.mark := by cases g <;> decide
    exact absurd (isDigit_of_mem_natText (h.subset hbracket)) (by decide)
  have hsupported : ¬ SupportSlot.unsupported.mark <:+:
      SupportSlot.text toMarkdown report .supported := by
    have hscore : ['D', '_'] <:+: SupportSlot.unsupported.mark :=
      ⟨"[[UNSUPPORTE".toList, "SYSCALLS_STUB]]".toList, by decide⟩
    exact fun h => not_infix_escape (by decide) (by decide) _ (hscore.trans h)
  have hlater : [SupportSlot.num, .supported, .unsupported].Pairwise fun f g =>
      ¬ g.mark <:+: SupportSlot.text toMarkdown report f := by
    refine .cons (fun g _ => hnum g) (.cons ?_ (List.pairwise_singleton _ _))
    intro g hg
    rwa [List.mem_singleton.mp hg]
  have hall : ∀ g : SupportSlot, g ∈ [SupportSlot.num, .supported, .unsupported] := by
    rintro (_ | _ | _) <;> decide
  have hfill := @foldl_replaceText _ layout SupportSlot.mark (SupportSlot.text toMarkdown report)
    SupportSlot.mark _ hmarked [.num, .supported, .unsupported] (by decide) hlater
    (fun _ _ => rfl) (fun _ _ g hg => absurd (hall g) hg)
  simp only [hall, if_true] at hfill
  exact hfill

/-- The bullets read back: a line for each unsupported name. -/
theorem splitOn_unsupportedText {report : SupportReport} (hsome : report.unsupported ≠ [])
    (hlines : ∀ x ∈ report.unsupported, '\n' ∉ x) :
    (replaceText "\\_" "_" (unsupportedText report)).splitOn '\n' = unsuppList report := by
  have hbullets : ∀ line ∈ unsuppList report, '\n' ∉ line := by
    intro line hline
    obtain ⟨x, hx, rfl⟩ := List.mem_map.mp hline
    rw [List.mem_append, not_or]
    exact ⟨by decide, hlines x hx⟩
  have hne : unsuppList report ≠ [] := by simpa [unsuppList] using hsome
  have hback : replaceText "\\_" "_" (unsupportedText report) = join "\n" (unsuppList report) :=
    unescape_escape (by decide) _
  rw [hback]
  exact List.splitOn_intercalate _ hbullets hne

/-- `support.md` shows the report: every stub is replaced where it stands, no `_` of the
table or of a name is left for Markdown to read, and the bullets give the names back. -/
theorem support_md_shows (hmarked : layout.Marked SupportSlot.mark) (report : SupportReport) :
    supportText toMarkdown (layout.fill SupportSlot.mark) report =
        layout.fill (SupportSlot.text toMarkdown report) ∧
      (∀ f : SupportSlot, ∀ c, c ≠ '\\' →
        ¬ [c, '_'] <:+: SupportSlot.text toMarkdown report f) ∧
      (report.unsupported ≠ [] → (∀ x ∈ report.unsupported, '\n' ∉ x) →
        (replaceText "\\_" "_" (SupportSlot.text toMarkdown report .unsupported)).splitOn '\n' =
          unsuppList report) := by
  refine ⟨supportText_fill hmarked report, fun f c hc => ?_, splitOn_unsupportedText⟩
  cases f with
  | num =>
      intro h
      have hscore : '_' ∈ natText report.supported.length := h.subset (by simp)
      exact absurd (isDigit_of_mem_natText hscore) (by decide)
  | supported => exact not_infix_escape (by decide) hc _
  | unsupported => exact not_infix_escape (by decide) hc _

end SupportTemplate

section Templates

/-- `wali.wit.template` in front of the types -/
def witPreamble : List Text :=
  ["package wali:linux64@1.0.0;",
    "",
    "/// WALI is a set of functions for perform low-level virtualization of the",
    "/// Linux applications by performing syscall translation. The WALI API is designed to be ",
    "/// as close as possible to the stable Linux syscall interface, requiring minimal work in engine",
    "/// implementations.",
    "/// This interface is designed for 64-bit Linux machines running WASM",
    "world linux \x7b",
    "    import syscalls;",
    "    import threads;",
    "    import environment;",
    "    import cl-args;",
    "    import misc;",
    "\x7d",
    "",
    "/// Representation of Linux syscall interface types"].map String.toList

/-- `wali.wit.template` behind the system calls -/
def witInterfaces : List Text :=
  ["",
    "interface threads \x7b",
    "    wasm-thread-spawn: func(setup-funcptr: u32, arg-wasm: s32) -> s32;",
    "\x7d",
    "",
    "interface environment \x7b",
    "    use syscalls.\x7bptr-char\x7d;",
    "    // Startup",
    "    call-ctors: func();",
    "    // Cleanup",
    "    call-dtors: func();",
    "    proc-exit: func(status: s32);",
    "    // Environment variables",
    "    get-init-envfile: func(filepath: ptr-char, pathsize: u32) -> bool;",
    "\x7d",
    "",
    "interface cl-args \x7b",
    "    use syscalls.\x7bptr-char\x7d;",
    "    // Get number of CL arguments",
    "    cl-get-argc: func() -> u32;",
    "    // Get size of a specific CL argument",
    "    cl-get-argv-len: func(arg-idx: u32) -> u32;",
    "    // Copy the contents of a specific CL argument",
    "    cl-copy-argv: func(argv-addr: ptr-char, arg-idx: u32) -> u32; ",
    "\x7d",
    "",
    "interface misc \x7b",
    "    use types.\x7bptr\x7d;",
    "    type ptr-sigjmpbuf = ptr;",
    "    // Setjmp/longjmp temporary stubs",
    "    sigsetjmp: func(sigjmpbuf: ptr-sigjmpbuf, savesigs: s32) -> s32;",
    "    siglongjmp: func(sigjmpbuf: ptr-sigjmpbuf, val: s32);",
    "\x7d",
    ""].map String.toList

/-- `wali.wit.template` -/
def witTemplate : Layout WitSlot where
  head := .text (join "\n" witPreamble)
  tail :=
    [('\n', .slot .types), ('\n', .text "\n/// Raw user-space Linux syscall wrappers"),
      ('\n', .slot .syscalls), ('\n', .text (join "\n" witInterfaces))]

/-- `support.md.template` in front of the number of system calls -/
def supportPreamble : List Text :=
  ["## Syscall Support",
    "",
    "The WALI prototype is designed to support syscalls across the following",
    "architectures: **x86-64, aarch64, riscv64**",
    "",
    "Generated based on Marcin Juszkiewicz's [syscall table](https://gpages.juszkiewicz.com.pl/syscalls-table/syscalls.html)",
    "",
    "Number of supported syscalls: *"].map String.toList

/-- `support.md.template` -/
def supportTemplate : Layout SupportSlot where
  head := .text (join "\n" supportPreamble)
  tail :=
    [('*', .slot .num), ('*', .text "*\n"), ('\n', .slot .supported),
      ('\n', .text "\n## Currently Unsupported Syscalls\n"), ('\n', .slot .unsupported),
      ('\n', .text [])]

/-- The fixed parts of a template lack a character that every mark has. -/
theorem marked_of_score {φ : Type} {layout : Layout φ} {mark : φ → Text}
    (hfences : ∀ part ∈ layout.tail, part.1 ∈ "\n*".toList)
    (htexts : ∀ s, .text s ∈ layout.segments → '_' ∉ s)
    (hscore : ∀ f, '_' ∈ mark f ∧ '\n' ∉ mark f ∧ '*' ∉ mark f)
    (hapart : ∀ f g, mark f <:+: mark g → f = g) : layout.Marked mark where
  mark_ne_nil f := List.ne_nil_of_mem (hscore f).1
  fences part hpart f hmem := by
    obtain ⟨_, hline, hstar⟩ := hscore f
    have hfence : part.1 = '\n' ∨ part.1 = '*' := by simpa using hfences part hpart
    rcases hfence with heq | heq
    · exact hline (heq ▸ hmem)
    · exact hstar (heq ▸ hmem)
  texts s hs f h := htexts s hs (h.subset (hscore f).1)
  apart := hapart

theorem not_mem_toList {c : Char} {s : List Char} (h : c ∉ s) : c ∉ (String.ofList s).toList := by
  rwa [String.toList_ofList]

theorem score_not_mem_lines {lines : List Text} (h : ∀ line ∈ lines, '_' ∉ line) :
    '_' ∉ join "\n" lines := by
  intro hmem
  rcases mem_of_mem_join hmem with hmem | ⟨line, hline, hmem⟩
  · exact absurd hmem (by decide)
  · exact h line hline hmem

theorem score_not_mem_shipped :
    ∀ lines ∈ [witPreamble, witInterfaces, supportPreamble], ∀ line ∈ lines, '_' ∉ line := by
  simp only [witPreamble, witInterfaces, supportPreamble, List.map_cons, List.map_nil,
    List.forall_mem_cons]
  and_intros
  all_goals first | exact not_mem_toList (by decide) | exact fun _ h => absurd h List.not_mem_nil

theorem witTemplate_marked : witTemplate.Marked WitSlot.mark := by
  refine marked_of_score (by decide) ?_ (by rintro (_ | _) <;> decide) ?_
  · intro s hs
    have hparts : s = join "\n" witPreamble ∨
        s = "\n/// Raw user-space Linux syscall wrappers".toList ∨
        s = join "\n" witInterfaces := by
      simpa [witTemplate, Layout.segments] using hs
    rcases hparts with rfl | rfl | rfl
    · exact score_not_mem_lines (score_not_mem_shipped _ (by simp))
    · exact not_mem_toList (by decide)
    · exact score_not_mem_lines (score_not_mem_shipped _ (by simp))
  · rintro (_ | _) (_ | _) h
    all_goals first | rfl | exact absurd h (by decide)

theorem supportTemplate_marked : supportTemplate.Marked SupportSlot.mark := by
  refine marked_of_score (by decide) ?_ (by rintro (_ | _ | _) <;> decide) ?_
  · intro s hs
    have hparts : s = join "\n" supportPreamble ∨ s = "*\n".toList ∨
        s = "\n## Currently Unsupported Syscalls\n".toList ∨ s = [] := by
      simpa [supportTemplate, Layout.segments] using hs
    rcases hparts with rfl | rfl | rfl | rfl
    · exact score_not_mem_lines (score_not_mem_shipped _ (by simp))
    · exact not_mem_toList (by decide)
    · exact not_mem_toList (by decide)
    · exact List.not_mem_nil
  · rintro (_ | _ | _) (_ | _ | _) h
    all_goals first | rfl | exact absurd h (by decide)

def sampleReport : SupportReport where
  supported := [⟨.str "getpid", .int 0, List.replicate 6 (.str [])⟩]
  unsupported := ["mmap2", "uselib"]

theorem shipped_support_md :
    (replaceText "\\_" "_" (SupportSlot.text (fun _ => []) sampleReport .unsupported)).splitOn '\n' =
      unsuppList sampleReport :=
  (support_md_shows supportTemplate_marked sampleReport).2.2 (by decide) (by decide)

end Templates

end Wali.TemplateFilling
