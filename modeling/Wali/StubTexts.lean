import Wali.LibcStubs
import Wali.LineForms
import Wali.StubAgreement
import Wali.WamrStubs

/-!
The texts of the libc and the WAMR files, read line by line: they list the same functions with
the same numbers of parameters.
-/

namespace Wali.StubTexts

open Wali.ArgumentTypes
open Wali.LibcStubs
open Wali.LineForms
open Wali.PythonText
open Wali.RunOutcome
open Wali.RunOutcome.Outcome
open Wali.StubAgreement
open Wali.StubEmission
open Wali.SyscallTable
open Wali.TypeTemplates
open Wali.WamrStubs

section Forms

/-- `WALI_SYSCALL_DEF (name, params);` -/
def defForm : LineForm where
  head := "WALI_SYSCALL_DEF ("
  seps := [", "]
  tail := ");"

/-- `CASE_SYSCALL (name, name, args);` -/
def caseForm : LineForm where
  head := "\t\tCASE_SYSCALL ("
  seps := [", ", ", "]
  tail := ");"

/-- `pub fn __syscall_SYS_name(params) -> ::c_long;` -/
def rustDefForm : LineForm where
  head := "\tpub fn __syscall_SYS_"
  seps := ["("]
  tail := ") -> ::c_long;"

/-- `super::SYS_name => syscall_match_arm!(SYS_name, args, args),` -/
def rustArmForm : LineForm where
  head := "\t\tsuper::SYS_"
  seps := [" => syscall_match_arm!(SYS_", ", args, "]
  tail := "),"

/-- `long wali_syscall_name (params);` -/
def declrForm : LineForm where
  head := "long wali_syscall_"
  seps := [" ("]
  tail := ");"

/-- `long wali_syscall_name (params) {` -/
def implForm : LineForm where
  head := "long wali_syscall_"
  seps := [" ("]
  tail := ") \x7b"

/-- `NSYMBOL ( SYS_name, wali_syscall_name, "(letters)letter" ),` -/
def symbolForm : LineForm where
  head := "\tNSYMBOL ( "
  seps := [", ", ", "]
  tail := " ),"

/-- The last two fields: a name, and a list with commas. -/
def signatureOf (fields : List Text) : Text × Nat :=
  (fields.dropLast.getLast?.getD [], countItems (fields.getLast?.getD []))

/-- The first parameter of the runtime's functions is the environment. -/
def wamrSignatureOf (fields : List Text) : Text × Nat :=
  ((signatureOf fields).1, (signatureOf fields).2 - 1)

def symbolSignatureOf (fields : List Text) : Text × Nat :=
  (((fields.head?.getD []).dropWhile (· == ' ')).drop "SYS_".toList.length,
    (parameterLetters (fields.getLast?.getD [])).length)

end Forms

section Entries

/-- A name as the languages of the files have them -/
def IsWord (s : Text) : Prop := ∀ c ∈ s, c.isAlphanum = true ∨ c = '_'

instance (s : Text) : Decidable (IsWord s) :=
  inferInstanceAs (Decidable (∀ c ∈ s, c.isAlphanum = true ∨ c = '_'))

/-- No part of the text ends an item of a list, or a line. -/
def IsBare (s : Text) : Prop := ',' ∉ s ∧ '\n' ∉ s

instance (s : Text) : Decidable (IsBare s) := inferInstanceAs (Decidable (',' ∉ s ∧ '\n' ∉ s))

theorem not_mem_of_isWord {s : Text} {c : Char} (h : IsWord s)
    (hc : ¬ (c.isAlphanum = true ∨ c = '_')) : c ∉ s := fun hmem => hc (h c hmem)

theorem isBare_of_isWord {s : Text} (h : IsWord s) : IsBare s :=
  ⟨not_mem_of_isWord h (by decide), not_mem_of_isWord h (by decide)⟩

theorem isBare_natText (n : Nat) : IsBare (natText n) :=
  ⟨fun h => absurd (isDigit_of_mem_natText h) (by decide),
    fun h => absurd (isDigit_of_mem_natText h) (by decide)⟩

theorem isBare_append {a b : Text} (ha : IsBare a) (hb : IsBare b) : IsBare (a ++ b) := by
  simp only [IsBare, List.mem_append, not_or]
  exact ⟨⟨ha.1, hb.1⟩, ha.2, hb.2⟩

theorem newline_not_mem_append {a b : Text} (ha : '\n' ∉ a) (hb : '\n' ∉ b) : '\n' ∉ a ++ b :=
  fun h => (List.mem_append.mp h).elim ha hb

theorem newline_not_mem_join {sep : Text} {parts : List Text} (hsep : '\n' ∉ sep)
    (h : ∀ part ∈ parts, IsBare part) : '\n' ∉ join sep parts := by
  intro hmem
  rcases mem_of_mem_join hmem with hmem | ⟨part, hpart, hmem⟩
  · exact hsep hmem
  · exact (h part hpart).2 hmem

theorem forall_mem_mapIdx {α β : Type} {P : β → Prop} {f : Nat → α → β} {xs : List α}
    (h : ∀ i, ∀ x ∈ xs, P (f i x)) : ∀ y ∈ xs.mapIdx f, P y := by
  intro y hy
  obtain ⟨i, hi, rfl⟩ := List.mem_mapIdx.mp hy
  exact h i _ (List.getElem_mem hi)

/-- A word in front of a part that begins with another character -/
theorem fits_cons {word sep : Text} {c : Char} {seps fields : List Text} (hword : IsWord word)
    (hsep : sep.head? = some c) (hc : ¬ (c.isAlphanum = true ∨ c = '_')) (h : Fits seps fields) :
    Fits (sep :: seps) (word :: fields) := by
  refine ⟨?_, fun d hd heq => ?_, h⟩
  · rintro rfl
    cases hsep
  · rw [hsep] at heq
    cases heq
    exact not_mem_of_isWord hword hc hd

theorem fits_last (field : Text) : Fits [] [field] := trivial

/-- A line of words with a list behind them -/
theorem read_lineText {form : LineForm} {words items : List Text} {fnName sep pad : Text}
    (hform : OneLine form) (hsep : sep = ',' :: pad) (hpad : IsBare pad)
    (hwords : ∀ word ∈ words ++ [fnName], IsWord word)
    (hitems : ∀ item ∈ items, item ≠ [] ∧ IsBare item)
    (hfits : Fits form.seps (words ++ [fnName, join sep items])) :
    (readLines form (lineText form (words ++ [fnName, join sep items]))).map signatureOf =
      [(fnName, items.length)] := by
  subst hsep
  have hcount : countItems (join (',' :: pad) items) = items.length :=
    countItems_intercalate hpad.1 fun item hitem => ⟨(hitems item hitem).1, (hitems item hitem).2.1⟩
  have hfields : ∀ field ∈ words ++ [fnName, join (',' :: pad) items], '\n' ∉ field := by
    intro field hfield
    rw [List.mem_append, List.mem_pair] at hfield
    rcases hfield with hfield | rfl | rfl
    · exact (isBare_of_isWord (hwords field (by simp [hfield]))).2
    · exact (isBare_of_isWord (hwords field (by simp))).2
    · refine newline_not_mem_join ?_ fun item hitem => (hitems item hitem).2
      simpa using hpad.2
  rw [readLines_lineText hform hfields hfits]
  simp [signatureOf, hcount]

/-- The signatures of the entries are read from the text if that of each entry is. -/
theorem filterMap_readLines {α : Type} {form : LineForm} {entries : List α} {render : α → Text}
    {read : List Text → Text × Nat} {signature : α → Option (Text × Nat)}
    (hempty : readLine form [] = none)
    (h : ∀ entry ∈ entries, (readLines form (render entry)).map read = (signature entry).toList) :
    (readLines form (join "\n" (entries.map render))).map read = entries.filterMap signature := by
  have hlines : readLines form (join "\n" (entries.map render)) =
      (entries.map render).flatMap (readLines form) := readLines_intercalate hempty _
  rw [hlines, List.flatMap_map, List.map_flatMap, List.filterMap_eq_flatMap_toList]
  exact List.flatMap_congr h

theorem map_readLines {α : Type} {form : LineForm} {entries : List α} {render : α → Text}
    {read : List Text → Text × Nat} {signature : α → Text × Nat}
    (hempty : readLine form [] = none)
    (h : ∀ entry ∈ entries, (readLines form (render entry)).map read = [signature entry]) :
    (readLines form (join "\n" (entries.map render))).map read = entries.map signature := by
  rw [← @List.filterMap_eq_map _ _ signature]
  exact @filterMap_readLines _ _ _ _ _ (some ∘ signature) hempty h

end Entries

section Libc

theorem read_def {d : SyscallDef} (hname : IsWord d.fnName)
    (hparams : ∀ p ∈ d.params, p ≠ [] ∧ IsBare p) :
    (readLines defForm d.render).map signatureOf = [d.signature] := by
  have hline : d.render = lineText defForm ([] ++ [d.fnName, join "," d.params]) := by
    unfold SyscallDef.render lineText defForm
    simp only [List.nil_append, fieldsText, List.flatten_singleton, List.append_assoc]
  rw [hline]
  exact read_lineText (by decide) rfl (by decide) (by simpa using hname) hparams
    (fits_cons hname rfl (by decide) (fits_last _))

theorem read_case {c : CaseSyscall} (hname : IsWord c.name) (hfnName : IsWord c.fnName)
    (hcasts : ∀ j ∈ c.casts, IsBare j) :
    (readLines caseForm c.render).map signatureOf = [c.signature] := by
  have hitems : ∀ arg ∈ c.casts.mapIdx fun i j => ("(" ++ j ++ ")a" ++ natText (i + 1) : Text),
      arg ≠ [] ∧ IsBare arg := by
    refine forall_mem_mapIdx fun i j hj => ⟨by simp, ?_⟩
    exact isBare_append (isBare_append (isBare_append (by decide) (hcasts j hj)) (by decide))
      (isBare_natText _)
  have hline : c.render = lineText caseForm ([c.name] ++ [c.fnName,
      join "," (c.casts.mapIdx fun i j => "(" ++ j ++ ")a" ++ natText (i + 1))]) := by
    unfold CaseSyscall.render lineText caseForm
    simp only [List.cons_append, List.nil_append, fieldsText, List.flatten_singleton,
      List.append_assoc]
  have hwords : ∀ word ∈ [c.name] ++ [c.fnName], IsWord word := by
    simpa using ⟨hname, hfnName⟩
  rw [hline]
  refine (read_lineText (by decide) rfl (by decide) hwords hitems
    (fits_cons hname rfl (by decide) (fits_cons hfnName rfl (by decide) (fits_last _)))).trans ?_
  rw [List.length_mapIdx]
  rfl

/-- The line of the function; the comment and the attribute in front of it have another form. -/
theorem read_rustDef {d : RustDef} (hnr : '\n' ∉ d.nr) (hname : IsWord d.fnName)
    (htys : ∀ ty ∈ d.argTys, IsBare ty) :
    (readLines rustDefForm d.render).map signatureOf = [d.signature] := by
  have hitems : ∀ arg ∈ d.argTys.mapIdx fun i j => ("a" ++ natText (i + 1) ++ ": " ++ j : Text),
      arg ≠ [] ∧ IsBare arg := by
    refine forall_mem_mapIdx fun i j hj => ⟨by simp, ?_⟩
    exact isBare_append (isBare_append (isBare_append (by decide) (isBare_natText _)) (by decide))
      (htys j hj)
  have hline : "\tpub fn __syscall_SYS_" ++ d.fnName ++ "(" ++
      join ", " (d.argTys.mapIdx fun i j => "a" ++ natText (i + 1) ++ ": " ++ j) ++ ") -> ::c_long;" =
      lineText rustDefForm ([] ++ [d.fnName,
        join ", " (d.argTys.mapIdx fun i j => "a" ++ natText (i + 1) ++ ": " ++ j)]) := by
    unfold lineText rustDefForm
    simp only [List.nil_append, fieldsText, List.flatten_singleton, List.append_assoc]
  have hcomment : readLines rustDefForm ("\t/* " ++ d.nr ++ " */") = [] := by
    have hone : '\n' ∉ ("\t/* " ++ d.nr ++ " */" : Text) := by simpa using hnr
    rw [readLines_of_newline_not_mem hone,
      @readLine_of_ne rustDefForm _ 1 'p' '/' rfl rfl (by decide)]
    rfl
  have hattribute : readLines rustDefForm ("\t#[link_name = \"SYS_" ++ d.fnName ++ "\"]") = [] := by
    have hone : '\n' ∉ ("\t#[link_name = \"SYS_" ++ d.fnName ++ "\"]" : Text) := by
      simpa using (isBare_of_isWord hname).2
    rw [readLines_of_newline_not_mem hone,
      @readLine_of_ne rustDefForm _ 1 'p' '#' rfl rfl (by decide)]
    rfl
  have hlines : readLines rustDefForm d.render = _ := readLines_intercalate (by decide) _
  rw [hlines, List.flatMap_cons, List.flatMap_cons, List.flatMap_singleton, hcomment, hattribute,
    List.nil_append, List.nil_append, hline]
  refine (read_lineText (by decide) rfl (by decide) (by simpa using hname) hitems
    (fits_cons hname rfl (by decide) (fits_last _))).trans ?_
  rw [List.length_mapIdx]
  rfl

theorem read_rustArm {arm : RustArm}
    (harm : match arm with
      | .matchArm name fnName args =>
          IsWord name ∧ IsWord fnName ∧ ∀ arg ∈ args, arg ≠ [] ∧ IsBare arg
      | .unimplemented name nr => IsWord name ∧ '\n' ∉ nr) :
    (readLines rustArmForm arm.render).map signatureOf = arm.signature?.toList := by
  cases arm with
  | matchArm name fnName args =>
      obtain ⟨hname, hfnName, hargs⟩ := harm
      have hline : (RustArm.matchArm name fnName args).render =
          lineText rustArmForm ([name] ++ [fnName, join ", " args]) := by
        unfold RustArm.render lineText rustArmForm
        simp only [List.cons_append, List.nil_append, fieldsText, List.flatten_singleton,
          List.append_assoc]
      have hwords : ∀ word ∈ [name] ++ [fnName], IsWord word := by
        simpa using ⟨hname, hfnName⟩
      rw [hline]
      exact read_lineText (by decide) rfl (by decide) hwords hargs
        (fits_cons hname rfl (by decide) (fits_cons hfnName rfl (by decide) (fits_last _)))
  | unimplemented name nr =>
      obtain ⟨hname, hnr⟩ := harm
      have hline : (RustArm.unimplemented name nr).render = rustArmForm.head ++
          (name ++ (" => unimplemented!(\"WALI syscall '" ++ (name ++ ("' (" ++ (nr ++
            ") unimplemented!\"".toList)))) ++ rustArmForm.tail) := by
        have htail : ") unimplemented!\"),".toList = ") unimplemented!\"".toList ++ "),".toList := rfl
        unfold RustArm.render rustArmForm
        simp only [List.append_assoc]
        exact congrArg (fun tail => _ ++ (name ++ (_ ++ (name ++ (_ ++ (nr ++ tail)))))) htail
      have hone : '\n' ∉ (RustArm.unimplemented name nr).render := by
        have hword := (isBare_of_isWord hname).2
        unfold RustArm.render
        repeat' refine newline_not_mem_append ?_ ?_
        all_goals first | decide | assumption
      have hother : readFields rustArmForm.seps (name ++ (" => unimplemented!(\"WALI syscall '" ++
          (name ++ ("' (" ++ (nr ++ ") unimplemented!\"".toList))))) = none :=
        @readFields_of_ne _ _ _ _ 4 's' 'u' (fun c hc heq => by
          cases heq
          exact not_mem_of_isWord hname (by decide) hc) rfl rfl rfl (by decide)
      rw [readLines_of_newline_not_mem hone, hline, readLine_append, hother]
      rfl

end Libc

section Wamr

theorem join_cons_commaPrefixed (first : Text) (params : List Text) :
    join ", " (first :: params) = first ++ commaPrefixed params := by
  induction params generalizing first with
  | nil =>
      rw [commaPrefixed, List.map_nil, List.flatten_nil, List.append_nil]
      exact List.intercalate_singleton
  | cons param params ih =>
      rw [join_cons (List.cons_ne_nil _ _), ih, commaPrefixed, commaPrefixed, List.map_cons,
        List.flatten_cons, List.append_assoc, List.append_assoc]

/-- The line of a function, the environment in front of its own parameters -/
theorem read_prototype {form : LineForm} {fnName : Text} {params : List Text}
    (hform : OneLine form) (hseps : form.seps = [" (".toList]) (hname : IsWord fnName)
    (hparams : ∀ p ∈ params, p ≠ [] ∧ IsBare p) :
    (readLines form (form.head ++ (fnName ++ (" (wasm_exec_env_t exec_env" ++
      (commaPrefixed params ++ form.tail))))).map wamrSignatureOf = [(fnName, params.length)] := by
  have hline : form.head ++ (fnName ++ (" (wasm_exec_env_t exec_env" ++
      (commaPrefixed params ++ form.tail))) =
        lineText form ([] ++ [fnName, join ", " ("wasm_exec_env_t exec_env" :: params)]) := by
    have hopen : " (wasm_exec_env_t exec_env".toList = " (".toList ++ "wasm_exec_env_t exec_env" := rfl
    unfold lineText
    rw [hseps, List.nil_append, fieldsText, fieldsText_nil, List.flatten_singleton,
      join_cons_commaPrefixed, hopen]
    simp only [List.append_assoc]
  have hitems : ∀ item ∈ "wasm_exec_env_t exec_env".toList :: params, item ≠ [] ∧ IsBare item :=
    List.forall_mem_cons.mpr ⟨by decide, hparams⟩
  have hread := @read_lineText form [] ("wasm_exec_env_t exec_env".toList :: params) fnName ", " [' ']
    hform rfl (by decide) (by simpa using hname) hitems
    (hseps ▸ fits_cons hname rfl (by decide) (fits_last _))
  have hmap : (readLines form (form.head ++ (fnName ++ (" (wasm_exec_env_t exec_env" ++
      (commaPrefixed params ++ form.tail))))).map wamrSignatureOf =
        ((readLines form (lineText form ([] ++
          [fnName, join ", " ("wasm_exec_env_t exec_env" :: params)]))).map signatureOf).map
            fun s => (s.1, s.2 - 1) := by
    rw [hline, List.map_map]
    rfl
  rw [hmap, hread]
  rfl

theorem read_declr {d : WamrDecl} (hname : IsWord d.fnName)
    (hparams : ∀ p ∈ d.params, p ≠ [] ∧ IsBare p) :
    (readLines declrForm d.render).map wamrSignatureOf = [d.signature] := by
  have hline : d.render = declrForm.head ++ (d.fnName ++ (" (wasm_exec_env_t exec_env" ++
      (commaPrefixed d.params ++ declrForm.tail))) := by
    unfold WamrDecl.render declrForm
    simp only [List.append_assoc]
  rw [hline]
  exact read_prototype (by decide) rfl hname hparams

theorem isBare_callArg (arg : CallArg) : '\n' ∉ arg.render := by
  cases arg with
  | plain i => exact newline_not_mem_append (by decide) (isBare_natText i).2
  | maddr i =>
      exact newline_not_mem_append (newline_not_mem_append (by decide) (isBare_natText i).2)
        (by decide)

theorem newline_not_mem_commaPrefixed {parts : List Text} (h : ∀ part ∈ parts, '\n' ∉ part) :
    '\n' ∉ commaPrefixed parts := by
  unfold commaPrefixed
  intro hmem
  obtain ⟨_, hpart, hmem⟩ := List.mem_flatten.mp hmem
  obtain ⟨part, hmem', rfl⟩ := List.mem_map.mp hpart
  exact newline_not_mem_append (by decide) (h part hmem') hmem

/-- The first line of the body; the other lines do not begin with `long`. -/
theorem read_impl {d : WamrImpl} (hnr : '\n' ∉ d.nr) (hname : IsWord d.fnName)
    (hparams : ∀ p ∈ d.params, p ≠ [] ∧ IsBare p) :
    (readLines implForm d.render).map wamrSignatureOf = [d.signature] := by
  have hother : ∀ {line : Text} {c : Char}, '\n' ∉ line → (line)[0]? = some c → 'l' ≠ c →
      readLines implForm line = [] := by
    intro line c hline hc hne
    rw [readLines_of_newline_not_mem hline, @readLine_of_ne implForm _ 0 'l' c rfl hc hne]
    rfl
  have hword := (isBare_of_isWord hname).2
  have hline : "long wali_syscall_" ++ d.fnName ++ " (wasm_exec_env_t exec_env" ++
      commaPrefixed d.params ++ ") \x7b" = implForm.head ++ (d.fnName ++
        (" (wasm_exec_env_t exec_env" ++ (commaPrefixed d.params ++ implForm.tail))) := by
    unfold implForm
    simp only [List.append_assoc]
  have hcomment : readLines implForm ("// " ++ d.nr ++ " TODO") = [] := by
    refine @hother _ '/' ?_ rfl (by decide)
    repeat' refine newline_not_mem_append ?_ ?_
    all_goals first | decide | assumption
  have hsc : readLines implForm ("\tSC(" ++ d.nr ++ " ," ++ d.fnName ++ ");") = [] := by
    refine @hother _ '\t' ?_ rfl (by decide)
    repeat' refine newline_not_mem_append ?_ ?_
    all_goals first | decide | assumption
  have herrsc : readLines implForm ("\tERRSC(" ++ d.fnName ++ ");") = [] := by
    refine @hother _ '\t' ?_ rfl (by decide)
    repeat' refine newline_not_mem_append ?_ ?_
    all_goals first | decide | assumption
  have hreturn : readLines implForm ("\tRETURN(__syscall" ++ natText d.numArgs ++ "(SYS_" ++
      d.fnName ++ commaPrefixed (d.callArgs.map CallArg.render) ++ "));") = [] := by
    have hargs : '\n' ∉ commaPrefixed (d.callArgs.map CallArg.render) := by
      refine newline_not_mem_commaPrefixed fun part hpart => ?_
      obtain ⟨arg, _, rfl⟩ := List.mem_map.mp hpart
      exact isBare_callArg arg
    have hnum := (isBare_natText d.numArgs).2
    refine @hother _ '\t' ?_ rfl (by decide)
    repeat' refine newline_not_mem_append ?_ ?_
    all_goals first | decide | assumption
  have hclose : readLines implForm "\x7d\n".toList = [] := by decide
  have hlines : readLines implForm d.render = _ := readLines_intercalate (by decide) _
  rw [hlines]
  simp only [List.flatMap_cons, List.flatMap_nil, hcomment, hsc, herrsc, hreturn, hclose,
    List.nil_append, List.append_nil]
  rw [hline]
  exact read_prototype (by decide) rfl hname hparams

theorem mem_padLeft {width : Nat} {s : Text} {c : Char} (h : c ∈ padLeft width s) :
    c = ' ' ∨ c ∈ s :=
  (List.mem_append.mp h).imp List.eq_of_mem_replicate id

theorem dropWhile_padLeft (width : Nat) {s : Text} {p : Char → Bool} (hspace : p ' ' = true) :
    (padLeft width s).dropWhile p = s.dropWhile p := by
  rw [padLeft, List.dropWhile_append_of_pos]
  intro c hc
  rwa [List.eq_of_mem_replicate hc]

theorem isWord_append {a b : Text} (ha : IsWord a) (hb : IsWord b) : IsWord (a ++ b) :=
  fun c hc => (List.mem_append.mp hc).elim (ha c) (hb c)

theorem read_symbol {s : NativeSymbol} (hname : IsWord s.fnName) (hargs : '\n' ∉ s.nativeArgs) :
    (readLines symbolForm s.render).map symbolSignatureOf = [s.signature] := by
  have hpadded : ∀ (width : Nat) {word : Text} {c : Char}, IsWord word → c ≠ ' ' →
      ¬ (c.isAlphanum = true ∨ c = '_') → c ∉ padLeft width word :=
    fun width word c hword hc hother hmem =>
      (mem_padLeft hmem).elim hc (not_mem_of_isWord hword hother)
  have hsys : IsWord ("SYS_" ++ s.fnName) := isWord_append (by decide) hname
  have hwali : IsWord ("wali_syscall_" ++ s.fnName) := isWord_append (by decide) hname
  have hline : s.render = lineText symbolForm [padLeft 20 ("SYS_" ++ s.fnName),
      padLeft 30 ("wali_syscall_" ++ s.fnName), padLeft 12 s.nativeArgs] := by
    unfold NativeSymbol.render lineText symbolForm
    simp only [fieldsText, List.flatten_singleton, List.append_assoc]
  have hfields : ∀ field ∈ [padLeft 20 ("SYS_" ++ s.fnName),
      padLeft 30 ("wali_syscall_" ++ s.fnName), padLeft 12 s.nativeArgs], '\n' ∉ field := by
    intro field hfield
    simp only [List.mem_cons, List.not_mem_nil, or_false] at hfield
    rcases hfield with rfl | rfl | rfl
    · exact hpadded 20 hsys (by decide) (by decide)
    · exact hpadded 30 hwali (by decide) (by decide)
    · exact fun hmem => (mem_padLeft hmem).elim (by decide) hargs
  have hfits : Fits symbolForm.seps [padLeft 20 ("SYS_" ++ s.fnName),
      padLeft 30 ("wali_syscall_" ++ s.fnName), padLeft 12 s.nativeArgs] := by
    have hcomma : ∀ field : Text, ',' ∉ field → ∀ c ∈ field, ", ".toList.head? ≠ some c := by
      intro field hfield c hc heq
      cases heq
      exact hfield hc
    exact ⟨List.cons_ne_nil _ _, hcomma _ (hpadded 20 hsys (by decide) (by decide)),
      List.cons_ne_nil _ _, hcomma _ (hpadded 30 hwali (by decide) (by decide)), fits_last _⟩
  have hletters : parameterLetters (padLeft 12 s.nativeArgs) = parameterLetters s.nativeArgs := by
    rw [parameterLetters, dropWhile_padLeft 12 (by decide)]
    rfl
  have hfn : ((padLeft 20 ("SYS_" ++ s.fnName)).dropWhile (· == ' ')).drop "SYS_".toList.length =
      s.fnName := by
    have hdrop : ("SYS_" ++ s.fnName).dropWhile (· == ' ') = "SYS_" ++ s.fnName := rfl
    rw [dropWhile_padLeft 20 (by decide), hdrop]
    exact List.drop_left
  rw [hline, readLines_lineText (by decide) hfields hfits]
  change [(((padLeft 20 _).dropWhile _).drop _, (parameterLetters (padLeft 12 _)).length)] = _
  rw [hfn, hletters]
  rfl

end Wamr

section Files

variable {T : Templates} {rows : List (SyscallRow Cell)} {libc : LibcFiles} {wamr : WamrFiles}

/-- A row whose texts keep to the lists and lines of the files. -/
structure PlainRow (T : Templates) (sc : SyscallRow Cell) : Prop where
  fnName : IsWord sc.fnName.text
  syscall : IsWord sc.syscall.text
  nr : '\n' ∉ sc.nr.text
  params : ∀ p ∈ defParams T sc, p ≠ [] ∧ IsBare p

theorem exists_row_of_mem {α : Type} {stub : Stub α} {entries : List α} {entry : α}
    (h : syscallIter T rows stub = returns entries) (hentry : entry ∈ entries) :
    ∃ sc ∈ rows, ∃ args, getScargs T sc = returns args ∧
      stub sc.nr sc.nargs sc.syscall sc.fnName args = returns (some entry) := by
  obtain ⟨buf, hbuf, rfl⟩ := syscallIter_eq_returns_iff.mp h
  obtain ⟨cell, hcell, heq⟩ := List.mem_filterMap.mp hentry
  obtain rfl : cell = some entry := heq
  obtain ⟨sc, hsc, hrow⟩ := exists_of_mem_forEach hbuf hcell
  obtain ⟨args, hargs, hstub⟩ := bind_eq_returns_iff.mp hrow
  exact ⟨sc, hsc, args, hargs, hstub⟩

/-- A file without further lines. -/
theorem fileText_plain {α : Type} (render : α → Text) (entries : List α) :
    fileText render entries [] [] = join "\n" (entries.map render) := by
  rw [fileText, List.nil_append, List.append_nil]

/-- A file with lines of other forms in front and behind. -/
theorem readLines_fileText {α : Type} {form : LineForm} {before after : Text}
    (hbefore : readLines form before = []) (hafter : readLines form after = [])
    (render : α → Text) (entries : List α) :
    readLines form (fileText render entries (before ++ ['\n']) ('\n' :: after)) =
      readLines form (join "\n" (entries.map render)) := by
  have hlines : fileText render entries (before ++ ['\n']) ('\n' :: after) =
      before ++ '\n' :: (join "\n" (entries.map render) ++ '\n' :: after) := by
    simp [fileText]
  rw [hlines, readLines_append, readLines_append, hbefore, hafter, List.nil_append, List.append_nil]

theorem join_concat_nil {sep : Text} {parts : List Text} (h : parts ≠ []) :
    join sep (parts ++ [[]]) = join sep parts ++ sep := by
  induction parts with
  | nil => exact absurd rfl h
  | cons part parts ih =>
      cases parts with
      | nil =>
          rw [List.singleton_append, join_cons (List.cons_ne_nil _ _)]
          simp [join]
      | cons next parts =>
          rw [List.cons_append, join_cons (by simp), ih (List.cons_ne_nil _ _),
            join_cons (List.cons_ne_nil _ _)]
          simp only [List.append_assoc]

theorem read_defsOut (hdefs : syscallIter T rows (defStub T) = returns libc.defs)
    (hplain : ∀ sc ∈ rows, PlainRow T sc) :
    (readLines defForm libc.defsOut).map signatureOf =
      rows.map fun sc => (sc.fnName.text, arity sc) := by
  have hread : ∀ d ∈ libc.defs, (readLines defForm d.render).map signatureOf =
      [d.signature] := by
    intro d hd
    obtain ⟨sc, hsc, args, hargs, hstub⟩ := exists_row_of_mem hdefs hd
    cases defStub_eq_returns hstub
    refine read_def (hplain sc hsc).fnName ?_
    rw [← defParams_of_getScargs hargs]
    exact (hplain sc hsc).params
  have hfile := map_readLines (by decide) hread
  rw [LibcFiles.defsOut, fileText_plain, hfile, defs_signature hdefs]

theorem read_caseOut (hcases : syscallIter T rows (caseStub T) = returns libc.cases)
    (hplain : ∀ sc ∈ rows, PlainRow T sc) :
    (readLines caseForm libc.caseOut).map signatureOf = listedFunctions rows := by
  have hread : ∀ c ∈ libc.cases, (readLines caseForm c.render).map signatureOf =
      [c.signature] := by
    intro c hc
    obtain ⟨sc, hsc, args, hargs, hstub⟩ := exists_row_of_mem hcases hc
    have hentry := caseStub_eq_returns hstub
    split at hentry
    · cases hentry
      refine read_case (hplain sc hsc).syscall (hplain sc hsc).fnName ?_
      rw [← defParams_of_getScargs hargs]
      exact fun p hp => ((hplain sc hsc).params p hp).2
    · cases hentry
  have hfile := map_readLines (by decide) hread
  rw [LibcFiles.caseOut, fileText_plain, hfile, cases_signature hcases]

/-- The lines in front of the functions -/
def rustDefsPrelude : List Text :=
  ["// --- Autogenerated from WALI/scripts/autogen.py ---",
    "#[link(wasm_import_module = \"wali\")]", "extern \"C\" \x7b"]

theorem read_rustDefsOut (hrust : syscallIter T rows (rustDefStub T) = returns libc.rustDefs)
    (hplain : ∀ sc ∈ rows, PlainRow T sc) (htys : ∀ d ∈ libc.rustDefs, ∀ ty ∈ d.argTys, IsBare ty) :
    (readLines rustDefForm libc.rustDefsOut).map signatureOf = listedFunctions rows := by
  have hread : ∀ d ∈ libc.rustDefs, (readLines rustDefForm d.render).map signatureOf =
      [d.signature] := by
    intro d hd
    obtain ⟨sc, hsc, args, _, hstub⟩ := exists_row_of_mem hrust hd
    unfold rustDefStub at hstub
    split at hstub
    · obtain ⟨argTys, _, heq⟩ := bind_eq_returns_iff.mp hstub
      cases heq
      exact read_rustDef (hplain sc hsc).nr (hplain sc hsc).fnName (htys _ hd)
    · cases hstub
  have hfile := map_readLines (by decide) hread
  have hprelude : readLines rustDefForm (join "\n" rustDefsPrelude) = [] := by decide +kernel
  have htext : libc.rustDefsOut = fileText RustDef.render libc.rustDefs
      (join "\n" rustDefsPrelude ++ ['\n']) ('\n' :: ['\x7d']) := by
    have hlast : join "\n" (rustDefsPrelude ++ [[]]) = join "\n" rustDefsPrelude ++ "\n" :=
      join_concat_nil (List.cons_ne_nil _ _)
    exact congrArg (fun before => fileText RustDef.render libc.rustDefs before "\n\x7d") hlast
  rw [htext, readLines_fileText hprelude (by decide), hfile, rustDefs_signature hrust]

/-- The lines in front of the arms and behind them -/
def rustMatchPrelude : List Text :=
  ["#[no_mangle]",
    "pub unsafe extern \"C\" fn syscall(num: ::c_long, mut args: ...) -> ::c_long \x7b",
    "\tuse core::unimplemented;", "\tmatch num \x7b"]

def rustMatchPostlude : List Text :=
  ["\t\t_ => unimplemented!(\"WALI syscall number \x7b\x7d out-of-scope!\", num),",
    "\t\x7d", "\x7d"]

theorem read_rustMatchOut (hmatch : syscallIter T rows rustMatchStub = returns libc.rustMatch)
    (hplain : ∀ sc ∈ rows, PlainRow T sc) :
    (readLines rustArmForm libc.rustMatchOut).map signatureOf = listedFunctions rows := by
  have hread : ∀ arm ∈ libc.rustMatch, (readLines rustArmForm arm.render).map signatureOf =
      arm.signature?.toList := by
    intro arm harm
    obtain ⟨sc, hsc, args, _, hstub⟩ := exists_row_of_mem hmatch harm
    unfold rustMatchStub at hstub
    split at hstub
    · cases hstub
      refine read_rustArm ⟨(hplain sc hsc).syscall, (hplain sc hsc).fnName, ?_⟩
      exact forall_mem_mapIdx fun i _ _ => ⟨by simp, isBare_append (by decide) (isBare_natText i)⟩
    · cases hstub
      exact read_rustArm ⟨(hplain sc hsc).syscall, (hplain sc hsc).nr⟩
  have hfile := filterMap_readLines (by decide) hread
  have hprelude : readLines rustArmForm (join "\n" rustMatchPrelude) = [] := by decide +kernel
  have hpostlude : readLines rustArmForm (join "\n" rustMatchPostlude) = [] := by decide +kernel
  have htext : libc.rustMatchOut = fileText RustArm.render libc.rustMatch
      (join "\n" rustMatchPrelude ++ ['\n']) ('\n' :: join "\n" rustMatchPostlude) := by
    have hlast : join "\n" (rustMatchPrelude ++ [[]]) = join "\n" rustMatchPrelude ++ "\n" :=
      join_concat_nil (List.cons_ne_nil _ _)
    have hfirst : join "\n" ([] :: rustMatchPostlude) = '\n' :: join "\n" rustMatchPostlude :=
      join_cons (List.cons_ne_nil _ _) "\n" []
    exact (congrArg (fun before => fileText RustArm.render libc.rustMatch before
      (join "\n" ([] :: rustMatchPostlude))) hlast).trans
        (congrArg (fun after => fileText RustArm.render libc.rustMatch _ after) hfirst)
  rw [htext, readLines_fileText hprelude hpostlude, hfile, rustMatch_signature hmatch]

theorem isItem_longParams (args : List Text) : ∀ p ∈ longParams args, p ≠ [] ∧ IsBare p :=
  forall_mem_mapIdx fun _ _ _ => ⟨by simp, isBare_append (by decide) (isBare_natText _)⟩

theorem read_declrOut (hdeclr : syscallIter T rows declrStub = returns wamr.declr)
    (hplain : ∀ sc ∈ rows, PlainRow T sc) :
    (readLines declrForm wamr.declrOut).map wamrSignatureOf =
      rows.map fun sc => (sc.fnName.text, arity sc) := by
  have hread : ∀ d ∈ wamr.declr, (readLines declrForm d.render).map wamrSignatureOf =
      [d.signature] := by
    intro d hd
    obtain ⟨sc, hsc, args, _, hstub⟩ := exists_row_of_mem hdeclr hd
    cases hstub
    exact read_declr (hplain sc hsc).fnName (isItem_longParams args)
  have hfile := map_readLines (by decide) hread
  rw [WamrFiles.declrOut, fileText_plain, hfile, declr_signature hdeclr]

theorem read_implOut (himpl : syscallIter T rows implStub = returns wamr.impl)
    (hplain : ∀ sc ∈ rows, PlainRow T sc) :
    (readLines implForm wamr.implOut).map wamrSignatureOf = listedFunctions rows := by
  have hread : ∀ d ∈ wamr.impl, (readLines implForm d.render).map wamrSignatureOf =
      [d.signature] := by
    intro d hd
    obtain ⟨sc, hsc, args, _, hstub⟩ := exists_row_of_mem himpl hd
    unfold implStub at hstub
    split at hstub
    · obtain ⟨callArgs, _, heq⟩ := bind_eq_returns_iff.mp hstub
      cases heq
      exact read_impl (hplain sc hsc).nr (hplain sc hsc).fnName (isItem_longParams args)
    · cases hstub
  have hfile := map_readLines (by decide) hread
  rw [WamrFiles.implOut, fileText_plain, hfile, impl_signature himpl]

theorem read_symbolsOut (hsymbols : syscallIter T rows symbolsStub = returns wamr.symbols)
    (hplain : ∀ sc ∈ rows, PlainRow T sc) :
    (readLines symbolForm wamr.symbolsOut).map symbolSignatureOf = listedFunctions rows := by
  have hread : ∀ s ∈ wamr.symbols, (readLines symbolForm s.render).map symbolSignatureOf =
      [s.signature] := by
    intro s hs
    obtain ⟨sc, hsc, args, _, hstub⟩ := exists_row_of_mem hsymbols hs
    unfold symbolsStub at hstub
    split at hstub
    · split at hstub
      · cases hstub
      · next fnName hname =>
          cases hstub
          have hword := (hplain sc hsc).fnName
          rw [hname] at hword
          refine read_symbol hword ?_
          have hletters : '\n' ∉ args.map nativeLetter := by
            intro hmem
            obtain ⟨a, _, ha⟩ := List.mem_map.mp hmem
            unfold nativeLetter at ha
            split at ha <;> cases ha
          repeat' refine newline_not_mem_append ?_ ?_
          all_goals first | decide | assumption
    · cases hstub
  have hfile := map_readLines (by decide) hread
  rw [WamrFiles.symbolsOut, fileText_plain, hfile, symbols_signature hsymbols]

/-- The seven files as texts: read line by line, five of them list the supported rows with their
arities, in table order, and two of them all rows. -/
theorem texts_list_functions (hlibc : genLibcStubs T rows = returns libc)
    (hwamr : genWamrStubs T rows = returns wamr) (hplain : ∀ sc ∈ rows, PlainRow T sc)
    (htys : ∀ d ∈ libc.rustDefs, ∀ ty ∈ d.argTys, IsBare ty) :
    ((readLines caseForm libc.caseOut).map signatureOf = listedFunctions rows ∧
      (readLines rustDefForm libc.rustDefsOut).map signatureOf = listedFunctions rows ∧
      (readLines rustArmForm libc.rustMatchOut).map signatureOf = listedFunctions rows ∧
      (readLines implForm wamr.implOut).map wamrSignatureOf = listedFunctions rows ∧
      (readLines symbolForm wamr.symbolsOut).map symbolSignatureOf = listedFunctions rows) ∧
    (readLines defForm libc.defsOut).map signatureOf =
      rows.map (fun sc => (sc.fnName.text, arity sc)) ∧
    (readLines declrForm wamr.declrOut).map wamrSignatureOf =
      rows.map fun sc => (sc.fnName.text, arity sc) := by
  obtain ⟨hdefs, hcases, hrust, hmatch⟩ := genLibcStubs_eq_returns_iff.mp hlibc
  obtain ⟨hdeclr, himpl, hsymbols⟩ := genWamrStubs_eq_returns_iff.mp hwamr
  exact ⟨⟨read_caseOut hcases hplain, read_rustDefsOut hrust hplain htys,
    read_rustMatchOut hmatch hplain, read_implOut himpl hplain, read_symbolsOut hsymbols hplain⟩,
    read_defsOut hdefs hplain, read_declrOut hdeclr hplain⟩

theorem sampleRows_texts :
    ∃ libc wamr, genLibcStubs shippedTemplates sampleRows = returns libc ∧
      genWamrStubs shippedTemplates sampleRows = returns wamr ∧
      (readLines rustArmForm libc.rustMatchOut).map signatureOf =
        [("fstat_at".toList, 2), ("getpid".toList, 0)] ∧
      (readLines symbolForm wamr.symbolsOut).map symbolSignatureOf =
        [("fstat_at".toList, 2), ("getpid".toList, 0)] := by
  have hplain : ∀ sc ∈ sampleRows, PlainRow shippedTemplates sc := by
    intro sc hsc
    simp only [sampleRows, List.mem_cons, List.not_mem_nil, or_false] at hsc
    rcases hsc with rfl | rfl | rfl
    all_goals exact ⟨by decide, by decide, by decide, by decide⟩
  obtain ⟨⟨_, _, hmatch, _, hsymbols⟩, _⟩ :=
    @texts_list_functions shippedTemplates sampleRows _ _ rfl rfl hplain (by decide)
  exact ⟨_, _, rfl, rfl, hmatch, hsymbols⟩

end Files

end Wali.StubTexts
