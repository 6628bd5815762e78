import Wali.StubEmission

/-!
`gen_wit_stubs`: the row loop, the types of the `types` interface, the scan for
record bindings and the lines of the two interfaces.
-/

namespace Wali.WitStubs

open Wali.ArgumentTypes
open Wali.InsertionDict
open Wali.PythonText
open Wali.RunOutcome
open Wali.RunOutcome.Outcome
open Wali.StubEmission
open Wali.SyscallTable
open Wali.TypeTemplates

def kebab (x : Text) : Text := replaceChar '_' '-' (replaceChar ' ' '-' x)

/-- `x.strip().replace(' ', '-').replace('_', '-')` -/
def witName : Cell → Outcome PyErr Text
  | .int _ => raises .attributeError
  | .str x => returns (kebab (strip x))

def ptrPrefix : Text := "ptr-"

def witArg (x : Text) : Text := if EndsIn '*' x then ptrPrefix ++ x.dropLast else x

def witArgType (x : Text) : Outcome PyErr Text :=
  if x = [] then raises .indexError else returns (witArg x)

/-- The type that a signature shows: single-word basic types by their value. -/
def writtenType (T : Templates) (arg : Text) : Text := (basicTypes T).getD arg arg

structure WitFunc where
  nr : Text
  fnName : Text
  argTypes : List Text
  origArgs : List Text

def WitFunc.name (f : WitFunc) : Text := replaceChar '_' '-' f.fnName

def WitFunc.render (f : WitFunc) : Text :=
  join "\n"
    ["\t// [" ++ f.nr ++ "] " ++ f.fnName ++ "(" ++ join ", " f.origArgs ++ ")",
      "\tSYS-" ++ f.name ++ ": func(" ++
        join ", " (f.argTypes.mapIdx fun i arg => "a" ++ natText (i + 1) ++ ": " ++ arg) ++
        ") -> syscall-result;"]

def WitFunc.signature (f : WitFunc) : Text × Nat := (f.name, f.argTypes.length)

/-- An item of `', '.join(...)` has to be a text. -/
def joinItem : Cell → Outcome PyErr Text
  | .int _ => raises .typeError
  | .str s => returns s

def witScDef (T : Templates) (nr nargs fnName : Cell) (args : List Text)
    (origArgs : List Cell) : Outcome PyErr (Option WitFunc) := do
  let orig ← forEach joinItem origArgs
  match fnName with
  | .int _ => raises .attributeError
  | .str fnName =>
      if nargs.truthy then
        returns (some ⟨nr.text, fnName, args.map (writtenType T), orig⟩)
      else returns none

/-- One round of the row loop: the argument types and the entry of the row. -/
def witRow (T : Templates) (sc : SyscallRow Cell) :
    Outcome PyErr (List Text × Option WitFunc) := do
  let origArgs ← argCells sc
  let names ← forEach witName origArgs
  let args ← forEach witArgType names
  let entry ← witScDef T sc.nr sc.nargs sc.fnName args origArgs
  returns (args, entry)

/-- `rep = lambda p: p.replace('_', '-').replace(' ', '-')` -/
def rep (p : Text) : Text := replaceChar ' ' '-' (replaceChar '_' '-' p)

def compValue (v : Text) : Text :=
  if startsWith "Array" v then replaceChar '_' '-' v else rep v

def compEntry (entry : Text × Text) : Text × Text := (rep entry.1, compValue entry.2)

def syscallResult : Text := "syscall-result"

def compTypes (T : Templates) : Dict Text Text :=
  (Dict.ofList [(syscallResult, ("s64" : Text))]).union
    (Dict.ofList (((basicTypes T).union (complexTypes T)).entries.map compEntry))

/-- The name after `record ` when the regex `record (\S+)` matches here. -/
def recordName? (s : Text) : Option Text :=
  if startsWith "record " s ∧ (s.drop 7).takeWhile (!isSpace ·) ≠ [] then
    some ((s.drop 7).takeWhile (!isSpace ·))
  else none

/-- `re.findall(r'record (\S+)', s)`, with `skip` characters of the current match
still to pass. -/
def findRecords : (skip : Nat) → Text → List Text
  | _, [] => []
  | skip + 1, _ :: cs => findRecords skip cs
  | 0, c :: cs =>
      match recordName? (c :: cs) with
      | some name => name :: findRecords (6 + name.length) cs
      | none => findRecords 0 cs

def recordTypes (recordContent : Text) : List Text := findRecords 0 recordContent

def ptrTypesOf (args : List Text) : List Text := args.filter (startsWith ptrPrefix ·)

/-- `sc_ptr_types`: pointees that need a record. -/
def scPtrTypes (T : Templates) (uniqPtrTypes : List Text) : List Text :=
  (uniqPtrTypes.map (·.drop 4)).filter fun x =>
    x ∉ basicTypes T ∧ x ∉ compTypes T ∧ x ≠ "void".toList ∧ x ≠ "char".toList

structure WitInterface where
  compTypes : Dict Text Text
  uniqPtrTypes : List Text
  recordContent : Text
  methods : List WitFunc
  missingTypes : List Text

def genWitStubs (T : Templates) (recordContent : Text)
    (syscallInfo : List (SyscallRow Cell)) : Outcome PyErr WitInterface := do
  let buf ← forEach (witRow T) syscallInfo
  let uniqPtrTypes := sorted (buf.flatMap fun row => ptrTypesOf row.1)
  returns
    { compTypes := compTypes T
      uniqPtrTypes
      recordContent
      methods := (buf.map Prod.snd).filterMap id
      missingTypes :=
        (scPtrTypes T uniqPtrTypes).filter (· ∉ recordTypes recordContent) }

namespace WitInterface

variable (wit : WitInterface)

def typeLine (entry : Text × Text) : Text :=
  "\ttype " ++ entry.1 ++ " = " ++ entry.2 ++ ";"

def typeIf : List Text :=
  "interface types \x7b".toList :: (wit.compTypes.entries.map typeLine ++ ["\x7d".toList])

def ptrLine (x : Text) : Text := "\ttype " ++ x ++ " = ptr;"

/-- `"\t" + '\n\t'.join(record_content.split('\n'))` -/
def recordLines : Text :=
  '\t' :: wit.recordContent.flatMap fun c => if c = '\n' then ['\n', '\t'] else [c]

def scPrelude : List Text :=
  "interface syscalls \x7b".toList ::
    ("\tuse types.\x7b" ++ join ", " wit.compTypes.keys ++ "\x7d;" : Text) ::
    "\t/// Readable pointer types".toList ::
    (wit.uniqPtrTypes.map ptrLine ++
      [[], "\t/// Record types".toList, wit.recordLines, []])

def scIf : List Text :=
  wit.scPrelude ++ "\t/// Syscall methods".toList ::
    (wit.methods.map WitFunc.render ++ ["\x7d".toList])

end WitInterface

variable {T : Templates} {sc : SyscallRow Cell} {rows : List (SyscallRow Cell)}

theorem rep_eq_kebab (p : Text) : rep p = kebab p := by
  simp only [rep, kebab, replaceChar, List.map_map]
  apply List.map_congr_left
  intro c _
  simp only [Function.comp_apply]
  split_ifs <;> simp_all

theorem endsIn_kebab_iff (x : Text) : EndsIn '*' (kebab x) ↔ EndsIn '*' x := by
  unfold kebab
  rw [endsIn_replaceChar_iff (by decide) (by decide),
    endsIn_replaceChar_iff (by decide) (by decide)]

theorem kebab_eq_nil_iff {x : Text} : kebab x = [] ↔ x = [] := by
  rw [kebab, replaceChar_eq_nil_iff, replaceChar_eq_nil_iff]

theorem kebab_of_not_mem {s : Text} (hspace : ' ' ∉ s) (hscore : '_' ∉ s) : kebab s = s := by
  rw [kebab, replaceChar_of_not_mem hspace, replaceChar_of_not_mem hscore]

theorem space_not_mem_kebab (s : Text) : ' ' ∉ kebab s := by
  intro h
  obtain ⟨c, hc, heq⟩ := List.mem_map.mp h
  split at heq
  · exact absurd heq (by decide)
  · exact not_mem_replaceChar (by decide) s (heq ▸ hc)

theorem score_not_mem_kebab (s : Text) : '_' ∉ kebab s := not_mem_replaceChar (by decide) _

theorem kebab_kebab (s : Text) : kebab (kebab s) = kebab s :=
  kebab_of_not_mem (space_not_mem_kebab s) (score_not_mem_kebab s)

theorem mem_compTypes {k : Text} :
    k ∈ compTypes T ↔ k = syscallResult ∨ ∃ v ∈ combinedTypes T, k = kebab v := by
  have hkeys : ∀ d : Dict Text Text, k ∈ Dict.ofList (d.entries.map compEntry) ↔
      ∃ v ∈ d, k = kebab v := by
    intro d
    rw [Dict.mem_ofList, List.map_map]
    simp only [List.mem_map, Function.comp_apply, compEntry, rep_eq_kebab, Dict.mem_iff,
      Dict.keys]
    constructor
    · rintro ⟨entry, hentry, rfl⟩
      exact ⟨entry.1, ⟨entry, hentry, rfl⟩, rfl⟩
    · rintro ⟨_, ⟨entry, hentry, rfl⟩, rfl⟩
      exact ⟨entry, hentry, rfl⟩
  rw [compTypes, Dict.mem_union, hkeys, Dict.mem_ofList]
  simp [combinedTypes]

/-- A line of the `types` interface is the fixed one or comes from an entry of the templates. -/
theorem entry_of_compTypes {entry : Text × Text} (h : entry ∈ (compTypes T).entries) :
    entry = (syscallResult, "s64".toList) ∨
      ∃ origin ∈ (combinedTypes T).entries, entry = compEntry origin := by
  have hget := Dict.get?_eq_some_iff.mpr h
  rw [compTypes, Dict.get?_union, Option.or_eq_some_iff] at hget
  rcases hget with hget | ⟨_, hget⟩
  · obtain ⟨origin, horigin, heq⟩ := List.mem_map.mp (Dict.mem_pairs_of_get?_ofList hget)
    exact .inr ⟨origin, horigin, heq.symm⟩
  · exact .inl (List.mem_singleton.mp (Dict.mem_pairs_of_get?_ofList hget))

theorem forEach_witName_eq_returns_iff {cells : List Cell} {names : List Text} :
    forEach witName cells = returns names ↔
      ∃ texts : List Text, cells = texts.map Cell.str ∧
        names = texts.map fun x => kebab (strip x) := by
  induction cells generalizing names with
  | nil =>
      simp only [forEach_nil, returns.injEq]
      constructor
      · rintro rfl
        exact ⟨[], by simp⟩
      · rintro ⟨texts, htexts, rfl⟩
        simp [List.map_eq_nil_iff.mp htexts.symm]
  | cons cell cells ih =>
      simp only [forEach, bind_eq_returns_iff, returns.injEq]
      constructor
      · rintro ⟨name, hname, names', hnames', rfl⟩
        rcases cell with z | x
        · cases hname
        · cases hname
          obtain ⟨texts, rfl, rfl⟩ := ih.mp hnames'
          exact ⟨x :: texts, rfl, rfl⟩
      · rintro ⟨_ | ⟨x, texts⟩, htexts, rfl⟩
        · simp at htexts
        · simp only [List.map_cons, List.cons.injEq] at htexts
          obtain ⟨rfl, rfl⟩ := htexts
          exact ⟨_, rfl, _, ih.mpr ⟨texts, rfl, rfl⟩, rfl⟩

/-- The name that the row loop gives to the argument type `c`. -/
def witType (c : Text) : Text := witArg (kebab (strip c))

/-- Names with a dash are no keys of `BASIC_TYPES`: they are written as they are. -/
theorem writtenType_of_startsWith {t : Text} (h : startsWith ptrPrefix t) :
    writtenType T t = t := by
  refine Dict.getD_of_not_mem _ fun hbasic => ?_
  obtain ⟨entry, hentry, rfl⟩ := List.mem_map.mp (Dict.mem_ofList.mp hbasic)
  obtain ⟨template, _, rfl⟩ := List.mem_map.mp hentry
  exact not_mem_replaceChar (by decide : '-' ≠ ' ') _ (h.subset (by decide))

theorem not_mem_witType {ch : Char} (hptr : ch ∉ ptrPrefix) {c : Text}
    (hc : ch ∉ kebab (strip c)) : ch ∉ witType c := by
  unfold witType witArg
  split
  · rw [List.mem_append, not_or]
    exact ⟨hptr, fun h => hc (List.dropLast_subset _ h)⟩
  · exact hc

theorem forEach_witArgType_eq_returns_iff {names args : List Text} :
    forEach witArgType names = returns args ↔
      (∀ x ∈ names, x ≠ []) ∧ args = names.map witArg := by
  induction names generalizing args with
  | nil => simp [eq_comm]
  | cons x names ih =>
      simp only [forEach, bind_eq_returns_iff, returns.injEq, ih, List.mem_cons,
        List.map_cons]
      constructor
      · rintro ⟨y, hy, ys, ⟨hnames, rfl⟩, rfl⟩
        unfold witArgType at hy
        split at hy
        · cases hy
        · next hx =>
            cases hy
            refine ⟨?_, rfl⟩
            rintro z (rfl | hz)
            · exact hx
            · exact hnames z hz
      · rintro ⟨hnames, rfl⟩
        refine ⟨witArg x, ?_, names.map witArg, ⟨fun z hz => hnames z (.inr hz), rfl⟩, rfl⟩
        rw [witArgType, if_neg (hnames x (.inl rfl))]

theorem witScDef_str (nr nargs : Cell) (fnName : Text) (args cells : List Text) :
    witScDef T nr nargs (.str fnName) args (cells.map Cell.str) =
      returns (if nargs.truthy then
        some ⟨nr.text, fnName, args.map (writtenType T), cells⟩ else none) := by
  have horig : forEach joinItem (cells.map Cell.str) = returns cells := by
    induction cells with
    | nil => rfl
    | cons c cells ih => simp [forEach, joinItem, ih]
  rw [witScDef, horig, returns_bind]
  by_cases hsupported : nargs.truthy <;> simp [hsupported]

theorem witRow_eq_returns_iff {args : List Text} {entry : Option WitFunc} :
    witRow T sc = returns (args, entry) ↔
      ∃ cells fnName, argCells sc = returns (cells.map Cell.str) ∧
        (∀ c ∈ cells, strip c ≠ []) ∧ sc.fnName = .str fnName ∧
        args = cells.map witType ∧
        entry = if sc.nargs.truthy then
          some ⟨sc.nr.text, fnName, args.map (writtenType T), cells⟩ else none := by
  simp only [witRow, bind_eq_returns_iff, returns.injEq, Prod.mk.injEq,
    forEach_witName_eq_returns_iff, forEach_witArgType_eq_returns_iff]
  constructor
  · rintro ⟨_, hcells, _, ⟨cells, rfl, rfl⟩, _, ⟨hne, rfl⟩, _, hdef, rfl, rfl⟩
    rcases hfn : sc.fnName with z | fnName
    · rw [hfn, witScDef] at hdef
      obtain ⟨_, _, hraise⟩ := bind_eq_returns_iff.mp hdef
      cases hraise
    · rw [hfn, witScDef_str, returns.injEq] at hdef
      refine ⟨cells, fnName, hcells, ?_, rfl, by simp [witType], hdef.symm⟩
      intro c hc hnil
      refine hne (kebab (strip c)) (List.mem_map.mpr ⟨c, hc, rfl⟩) ?_
      rw [kebab_eq_nil_iff, hnil]
  · rintro ⟨cells, fnName, hcells, hne, hfn, rfl, rfl⟩
    refine ⟨_, hcells, _, ⟨cells, rfl, rfl⟩, cells.map witType, ⟨?_, ?_⟩, _, ?_, rfl, rfl⟩
    · intro x hx
      obtain ⟨c, hc, rfl⟩ := List.mem_map.mp hx
      exact fun hnil => hne c hc (kebab_eq_nil_iff.mp hnil)
    · simp [witType]
    · rw [hfn, witScDef_str]

theorem genWitStubs_eq_returns_iff {recordContent : Text} {wit : WitInterface} :
    genWitStubs T recordContent rows = returns wit ↔
      ∃ buf, forEach (witRow T) rows = returns buf ∧
        wit.compTypes = compTypes T ∧
        wit.uniqPtrTypes = sorted (buf.flatMap fun row => ptrTypesOf row.1) ∧
        wit.recordContent = recordContent ∧
        wit.methods = (buf.map Prod.snd).filterMap id ∧
        wit.missingTypes = (scPtrTypes T wit.uniqPtrTypes).filter
          (· ∉ recordTypes recordContent) := by
  simp only [genWitStubs, bind_eq_returns_iff, returns.injEq]
  refine exists_congr fun buf => and_congr_right fun _ => ?_
  rcases wit with ⟨types, ptrTypes, content, methods, missing⟩
  simp only [WitInterface.mk.injEq]
  constructor
  · rintro ⟨rfl, rfl, rfl, rfl, rfl⟩
    exact ⟨rfl, rfl, rfl, rfl, rfl⟩
  · rintro ⟨rfl, rfl, rfl, rfl, rfl⟩
    exact ⟨rfl, rfl, rfl, rfl, rfl⟩

theorem finishes_genWitStubs_iff {recordContent : Text} :
    (genWitStubs T recordContent rows).Finishes ↔
      ∀ sc ∈ rows, sc.fnName.IsStr ∧ ∃ cells : List Text,
        argCells sc = returns (cells.map Cell.str) ∧ ∀ c ∈ cells, strip c ≠ [] := by
  rw [genWitStubs, finishes_bind_iff]
  have hrows : (∃ buf, forEach (witRow T) rows = returns buf) ↔
      ∀ sc ∈ rows, (witRow T sc).Finishes := finishes_forEach_iff
  simp only [finishes_returns, and_true, hrows]
  refine forall₂_congr fun sc _ => ?_
  constructor
  · rintro ⟨⟨args, entry⟩, hrow⟩
    obtain ⟨cells, fnName, hcells, hne, hfn, _, _⟩ := witRow_eq_returns_iff.mp hrow
    exact ⟨by simp [hfn, Cell.IsStr], cells, hcells, hne⟩
  · rintro ⟨hname, cells, hcells, hne⟩
    rcases hfn : sc.fnName with z | fnName
    · simp [hfn, Cell.IsStr] at hname
    · exact ⟨(_, _), witRow_eq_returns_iff.mpr ⟨cells, fnName, hcells, hne, hfn, rfl, rfl⟩⟩

/-- `c` is an argument type of the table. -/
def ArgumentCell (rows : List (SyscallRow Cell)) (c : Text) : Prop :=
  ∃ sc ∈ rows, ∃ cells : List Text, argCells sc = returns (cells.map Cell.str) ∧ c ∈ cells

theorem mem_uniqPtrTypes {recordContent p : Text} {wit : WitInterface}
    (h : genWitStubs T recordContent rows = returns wit) :
    p ∈ wit.uniqPtrTypes ↔
      startsWith ptrPrefix p ∧ ∃ c, ArgumentCell rows c ∧ p = witType c := by
  obtain ⟨buf, hbuf, _, hptr, _⟩ := genWitStubs_eq_returns_iff.mp h
  simp only [hptr, mem_sorted, List.mem_flatMap, ptrTypesOf, List.mem_filter,
    decide_eq_true_eq]
  constructor
  · rintro ⟨⟨args, entry⟩, hrow, hp, hstarts⟩
    obtain ⟨sc, hsc, hwit⟩ := exists_of_mem_forEach hbuf hrow
    obtain ⟨cells, _, hcells, _, _, rfl, _⟩ := witRow_eq_returns_iff.mp hwit
    obtain ⟨c, hc, rfl⟩ := List.mem_map.mp hp
    exact ⟨hstarts, c, ⟨sc, hsc, cells, hcells, hc⟩, rfl⟩
  · rintro ⟨hstarts, c, ⟨sc, hsc, cells, hcells, hc⟩, rfl⟩
    obtain ⟨⟨args, entry⟩, hrow, hwit⟩ := exists_mem_of_forEach hbuf hsc
    obtain ⟨cells', _, hcells', _, _, rfl, _⟩ := witRow_eq_returns_iff.mp hwit
    have heq : cells = cells' := argCells_inj hcells hcells'
    exact ⟨_, hrow, List.mem_map.mpr ⟨c, heq ▸ hc, rfl⟩, hstarts⟩

theorem mem_methods_iff {recordContent : Text} {wit : WitInterface} {f : WitFunc}
    (h : genWitStubs T recordContent rows = returns wit) :
    f ∈ wit.methods ↔ ∃ sc ∈ rows, sc.nargs.truthy = true ∧ sc.fnName = .str f.fnName ∧
      f.nr = sc.nr.text ∧ argCells sc = returns (f.origArgs.map Cell.str) ∧
      f.argTypes = f.origArgs.map fun c => writtenType T (witType c) := by
  obtain ⟨buf, hbuf, _, _, _, hmethods, _⟩ := genWitStubs_eq_returns_iff.mp h
  rw [hmethods]
  constructor
  · intro hf
    obtain ⟨entry, hentry, rfl⟩ := List.mem_filterMap.mp hf
    obtain ⟨⟨args, _⟩, hrow, rfl⟩ := List.mem_map.mp hentry
    obtain ⟨sc, hsc, hwit⟩ := exists_of_mem_forEach hbuf hrow
    obtain ⟨cells, fnName, hcells, _, hfn, rfl, hsome⟩ := witRow_eq_returns_iff.mp hwit
    split at hsome
    · next hsupported =>
        cases hsome
        exact ⟨sc, hsc, hsupported, hfn, rfl, hcells, by simp⟩
    · cases hsome
  · rintro ⟨sc, hsc, hsupported, hfn, hnr, hcells, hargs⟩
    obtain ⟨⟨args, entry⟩, hrow, hwit⟩ := exists_mem_of_forEach hbuf hsc
    obtain ⟨cells, fnName, hcells', _, hfn', rfl, rfl⟩ := witRow_eq_returns_iff.mp hwit
    have heq : f.origArgs = cells := argCells_inj hcells hcells'
    rw [hfn', Cell.str.injEq] at hfn
    refine List.mem_filterMap.mpr ⟨some f, List.mem_map.mpr ⟨_, hrow, ?_⟩, rfl⟩
    rcases f with ⟨nr, name, argTypes, origArgs⟩
    simp only at heq hfn hnr hargs
    simp [hsupported, heq, hfn, hnr, hargs]

theorem origin_of_mem_methods {recordContent : Text} {wit : WitInterface} {f : WitFunc}
    (h : genWitStubs T recordContent rows = returns wit) (hf : f ∈ wit.methods) :
    f.argTypes = f.origArgs.map (fun c => writtenType T (witType c)) ∧
      ∀ c ∈ f.origArgs, ArgumentCell rows c := by
  obtain ⟨sc, hsc, _, _, _, hcells, hargs⟩ := (mem_methods_iff h).mp hf
  exact ⟨hargs, fun c hc => ⟨sc, hsc, f.origArgs, hcells, hc⟩⟩

/-- Every argument type stands in some signature. -/
theorem ArgumentCell.listed {recordContent c : Text} {wit : WitInterface}
    (hc : ArgumentCell rows c) (h : genWitStubs T recordContent rows = returns wit) :
    ∃ f ∈ wit.methods, writtenType T (witType c) ∈ f.argTypes := by
  obtain ⟨sc, hsc, cells, hcells, hmem⟩ := hc
  obtain ⟨hname, _⟩ := finishes_genWitStubs_iff.mp ⟨wit, h⟩ sc hsc
  have hsupported : sc.nargs.truthy = true := by
    by_contra hblank
    rw [argCells_of_not_truthy (by simpa using hblank), returns.injEq] at hcells
    rw [List.map_eq_nil_iff.mp hcells.symm] at hmem
    cases hmem
  rcases hfn : sc.fnName with z | fnName
  · simp [hfn, Cell.IsStr] at hname
  · refine ⟨⟨sc.nr.text, fnName, cells.map fun c => writtenType T (witType c), cells⟩,
      (mem_methods_iff h).mpr ⟨sc, hsc, hsupported, hfn, rfl, hcells, rfl⟩, ?_⟩
    exact List.mem_map_of_mem hmem

theorem methods_signature {recordContent : Text} {wit : WitInterface}
    (h : genWitStubs T recordContent rows = returns wit) :
    wit.methods.map WitFunc.signature =
      (listedFunctions rows).map fun f => (replaceChar '_' '-' f.1, f.2) := by
  obtain ⟨buf, hbuf, _, _, _, hmethods, _⟩ := genWitStubs_eq_returns_iff.mp h
  have hentries := forEach_map Prod.snd hbuf
  rw [hmethods, ← List.filterMap_eq_map, listedFunctions, List.map_map]
  refine filterMap_of_forEach_rows (fun sc entry hrow => ?_) hentries
  obtain ⟨⟨args, entry'⟩, hwit, hentry⟩ := bind_eq_returns_iff.mp hrow
  cases hentry
  obtain ⟨cells, fnName, hcells, _, hfn, rfl, rfl⟩ := witRow_eq_returns_iff.mp hwit
  by_cases hsupported : sc.nargs.truthy
  · obtain ⟨n, hn, hlength⟩ := length_of_argCells hcells hsupported
    simp only [List.length_map] at hlength
    simp [hsupported, WitFunc.signature, WitFunc.name, hfn, arity, hn, hlength, Cell.text]
  · simp [hsupported]

end Wali.WitStubs
