import DeviceDriverTest.BcCall

/-! Programs as a whole: the text of the code of each line and of each definition is loaded, the machine runs, and
what is written and stored is what the program means. -/

namespace DeviceDriverTest

namespace Bc

open BcNumber Realization

inductive Item where
  | line (body : Stmts)
  | define (function : Nat) (d : Definition)

def nameText (name : Int) : List Char := (if name < 0 then ['-'] else []) ++ decimalText name.natAbs

/-- A parameter or an auto in the text. -/
def ArgList.text (arg : ArgList) : List Char := (if arg.argIsVar then ['*'] else []) ++ nameText arg.avName

def argStr : List ArgList → List Char
  | [] => []
  | [arg] => arg.text
  | arg :: args => arg.text ++ ',' :: argStr args

def Definition.text (function : Nat) (d : Definition) (code : List Instr) : List Char :=
  'F' :: decimalText function ++ ',' :: argStr d.params ++ '.' :: argStr d.autos ++ '[' :: code.flatMap Instr.text ++ [']']

/-- What the parser generates for an item. -/
def Item.text : Item → Option (List Char)
  | .line body => (body.generate .none 1).map fun (code, _) => code.flatMap Instr.text
  | .define function d => d.generate.map (d.text function)

/-- What the scanner and the symbol table see to, and the labels fit. -/
def Item.Ok : Item → Prop
  | .line body => body.Ok ∧ ∀ code label, body.generate .none 1 = some (code, label) → label ≤ 65536
  | .define function d => 0 < function ∧ function < 32768 ∧ d.body.Ok ∧
      ∀ code label, d.body.generate .none 1 = some (code, label) → label ≤ 65536

section Texts

variable {l : Loader} {rest : List Char} {fuel : Nat}

theorem decimalText_cons (n : Nat) : ∃ c str, decimalText n = c :: str ∧ isdigit c = true := by
  have hrow := isRow_decimal n
  have hne : (if n = 0 then [0] else (Nat.digits 10 n).reverse) ≠ [] := by
    split
    · exact nofun
    · exact List.reverse_ne_nil_iff.mpr (Nat.digits_ne_nil_iff_ne_zero.mpr ‹_›)
  rw [decimalText_eq]
  obtain ⟨d, ds, hds⟩ := List.exists_cons_of_ne_nil hne
  rw [hds] at hrow ⊢
  exact ⟨_, _, rfl, (bcd_char_cases (DigitRows.isRow_cons.mp hrow).1).1⟩

theorem ne_of_isdigit {c : Char} (h : isdigit c = true) : c ≠ '-' ∧ c ≠ '*' ∧ c ≠ '.' ∧ c ≠ ',' ∧ c ≠ '[' := by
  refine ⟨?_, ?_, ?_, ?_, ?_⟩ <;> rintro rfl <;> exact absurd h (by decide)

theorem longVal_neg {str : List Char} (h : str.head? ≠ some '-') : longVal ('-' :: str) = (-(longVal str).1, (longVal str).2) := by
  simp [longVal, h]

/-- A name in the text is read back up to the character behind it. -/
theorem longVal_nameText (name : Int) (hrest : ∀ c ∈ rest.head?, isdigit c = false) :
    longVal (nameText name ++ rest) = (name, rest) := by
  unfold nameText
  by_cases hneg : name < 0
  · obtain ⟨c, str, htext, hdigit⟩ := decimalText_cons name.natAbs
    have hhead : (decimalText name.natAbs ++ rest).head? ≠ some '-' := by
      rw [htext]
      exact fun h => (ne_of_isdigit hdigit).1 (Option.some.inj h)
    rw [if_pos hneg, List.append_assoc, List.singleton_append, longVal_neg hhead, longVal_decimalText _ hrest]
    exact congrArg (·, rest) (by omega)
  · rw [if_neg hneg, List.nil_append, longVal_decimalText _ hrest, Int.natAbs_of_nonneg (not_lt.mp hneg)]

theorem nameText_cons (name : Int) : ∃ c str, nameText name = c :: str ∧ c ≠ '*' ∧ c ≠ '.' ∧ c ≠ ',' ∧ c ≠ '[' := by
  unfold nameText
  split
  · exact ⟨'-', _, rfl, by decide⟩
  · obtain ⟨c, str, htext, hdigit⟩ := decimalText_cons name.natAbs
    exact ⟨c, str, htext, (ne_of_isdigit hdigit).2⟩

theorem loadParams_text (arg : ArgList) (list : List ArgList) (hrest : ∀ c ∈ rest.head?, isdigit c = false) :
    loadParams (fuel + 1) (',' :: (arg.text ++ rest)) list = loadParams fuel rest (arg :: list) := by
  obtain ⟨name, isVar⟩ := arg
  obtain ⟨c, str, htext, hstar, hpoint, -⟩ := nameText_cons name
  have hname := longVal_nameText name hrest
  rw [htext, List.cons_append] at hname
  cases isVar with
  | true => simp [ArgList.text, htext, loadParams, hname]
  | false => simp [ArgList.text, htext, loadParams, hname, hstar, hpoint]

theorem loadParams_argStr (params list : List ArgList) (hfuel : params.length < fuel) :
    loadParams fuel (',' :: (argStr params ++ '.' :: rest)) list = (params.reverse ++ list, rest) := by
  have hpoint : ∀ c ∈ ('.' :: rest).head?, isdigit c = false := fun c hc => Option.some.inj hc ▸ rfl
  have hcomma : ∀ str : List Char, ∀ c ∈ (',' :: str).head?, isdigit c = false := fun _ c hc => Option.some.inj hc ▸ rfl
  induction params generalizing fuel list with
  | nil =>
    obtain ⟨fuel, rfl⟩ := Nat.exists_eq_add_one.mpr hfuel
    rfl
  | cons param params ih =>
    obtain ⟨fuel, rfl⟩ := Nat.exists_eq_add_one.mpr (Nat.zero_lt_of_lt hfuel)
    have hle := Nat.lt_of_succ_lt_succ hfuel
    cases params with
    | nil =>
      obtain ⟨fuel, rfl⟩ := Nat.exists_eq_add_one.mpr hle
      rw [argStr, loadParams_text param list hpoint]
      rfl
    | cons param2 params =>
      have htext : argStr (param :: param2 :: params) ++ '.' :: rest =
          param.text ++ (',' :: (argStr (param2 :: params) ++ '.' :: rest)) := by
        rw [argStr, List.append_assoc, List.cons_append]
        exact nofun
      rw [htext, loadParams_text param list (hcomma _), ih _ hle]
      simp

theorem loadAutos_text {arg : ArgList} (harg : arg.argIsVar = false) (comma : Bool) (list : List ArgList)
    (hrest : ∀ c ∈ rest.head?, isdigit c = false) :
    loadAutos (fuel + 1) ((if comma then [','] else []) ++ (arg.text ++ rest)) list = loadAutos fuel rest (arg :: list) := by
  obtain ⟨name, isVar⟩ := arg
  obtain rfl : isVar = false := harg
  obtain ⟨c, str, htext, -, -, hcomma, hbracket⟩ := nameText_cons name
  have hname := longVal_nameText name hrest
  rw [htext, List.cons_append] at hname
  cases comma with
  | true => simp [ArgList.text, htext, loadAutos, hname]
  | false => simp [ArgList.text, htext, loadAutos, hname, hcomma, hbracket]

theorem loadAutos_argStr (autos list : List ArgList) (hautos : ∀ auto ∈ autos, auto.argIsVar = false) (comma : Bool)
    (hcomma : comma = true → autos ≠ []) (hfuel : autos.length < fuel) :
    loadAutos fuel ((if comma then [','] else []) ++ (argStr autos ++ '[' :: rest)) list = (autos.reverse ++ list, rest) := by
  have hbracket : ∀ c ∈ ('[' :: rest).head?, isdigit c = false := fun c hc => Option.some.inj hc ▸ rfl
  have hnext : ∀ str : List Char, ∀ c ∈ (',' :: str).head?, isdigit c = false := fun _ c hc => Option.some.inj hc ▸ rfl
  induction autos generalizing fuel list comma with
  | nil =>
    obtain ⟨fuel, rfl⟩ := Nat.exists_eq_add_one.mpr hfuel
    cases comma with
    | true => exact absurd rfl (hcomma rfl)
    | false => rfl
  | cons auto autos ih =>
    obtain ⟨fuel, rfl⟩ := Nat.exists_eq_add_one.mpr (Nat.zero_lt_of_lt hfuel)
    have hle := Nat.lt_of_succ_lt_succ hfuel
    obtain ⟨hauto, hrest⟩ := List.forall_mem_cons.mp hautos
    cases autos with
    | nil =>
      obtain ⟨fuel, rfl⟩ := Nat.exists_eq_add_one.mpr hle
      rw [argStr, loadAutos_text hauto comma list hbracket]
      rfl
    | cons auto2 autos =>
      have htext : argStr (auto :: auto2 :: autos) ++ '[' :: rest =
          auto.text ++ (',' :: (argStr (auto2 :: autos) ++ '[' :: rest)) := by
        rw [argStr, List.append_assoc, List.cons_append]
        exact nofun
      have htail := ih (auto :: list) hrest true (fun _ => nofun) hle
      rw [if_pos rfl, List.singleton_append] at htail
      rw [htext, loadAutos_text hauto comma list (hnext _), htail]
      simp

theorem length_argStr (args : List ArgList) : args.length ≤ (argStr args).length := by
  induction args with
  | nil => exact le_refl _
  | cons arg args ih =>
    obtain ⟨c, str, htext, -⟩ := nameText_cons arg.avName
    have hlen : 1 ≤ arg.text.length := by
      simp [ArgList.text, htext]
      omega
    cases args with
    | nil => exact hlen
    | cons arg2 args =>
      simp only [argStr, List.length_cons, List.length_append] at ih ⊢
      omega

theorem loadStep_define {function : Nat} {params autos : List ArgList} {str str1 str2 : List Char} (hl : l.Ready)
    (hlong : longVal str = ((function : Int), str1)) (hparams : loadParams str1.length str1 [] = (params, str2))
    (hautos : loadAutos str2.length str2 [] = (autos, rest)) :
    loadStep l 'F' str =
      some
        ({ l with
            functions := Function.update l.functions function { Function.empty with params := params, autos := autos }
            func := function
            saveFunc := l.func }, rest) := by
  simp only [loadStep, hl.loadStr, hl.loadConst, hlong, hparams, hautos]
  rfl

/-- The text of a definition loads the function, and the loader is back in the main program then. -/
theorem loadCode_define {function : Nat} {d : Definition} {code : List Instr} (hl : l.Ready)
    (hautos : ∀ auto ∈ d.autos, auto.argIsVar = false) (hcode : ∀ i ∈ code, i.Ok) :
    loadCode l (d.text function code) =
      some { l with
        functions := Function.update l.functions function
          { code.foldl Function.put { Function.empty with params := d.params.reverse, autos := d.autos.reverse } with
            defined := true }
        saveFunc := l.func } := by
  set tail := code.flatMap Instr.text ++ [']']
  set autosStr := argStr d.autos ++ '[' :: tail
  set paramsStr := ',' :: (argStr d.params ++ '.' :: autosStr)
  have hcomma : ∀ c ∈ paramsStr.head?, isdigit c = false := fun c hc => Option.some.inj hc ▸ rfl
  have hparams : loadParams paramsStr.length paramsStr [] = (d.params.reverse, autosStr) := by
    have hle := length_argStr d.params
    refine (loadParams_argStr d.params [] ?_).trans (by rw [List.append_nil])
    simp only [paramsStr, List.length_cons, List.length_append]
    omega
  have hautos : loadAutos autosStr.length autosStr [] = (d.autos.reverse, tail) := by
    have hle := length_argStr d.autos
    refine (loadAutos_argStr d.autos [] hautos false nofun ?_).trans (by rw [List.append_nil])
    simp only [autosStr, List.length_cons, List.length_append]
    omega
  have htext : d.text function code = 'F' :: (decimalText function ++ paramsStr) := by
    simp [Definition.text, paramsStr, autosStr, tail]
  rw [htext, loadCode_cons, loadStep_define hl (longVal_decimalText function hcomma) hparams hautos, Option.bind_some]
  simp only [tail]
  set f : Function := { Function.empty with params := d.params.reverse, autos := d.autos.reverse }
  set inner : Loader :=
    { l with functions := Function.update l.functions function f, func := function, saveFunc := l.func }
  have hready : inner.Ready := ⟨hl.loadStr, hl.loadConst⟩
  have hclose : ∀ l : Loader, l.Ready →
      loadStep l ']' [] = some ({ l.change ({ · with defined := true }) with func := l.saveFunc }, []) := fun l hl => by
    simp [loadStep, hl.loadStr, hl.loadConst]
  have hinner : (inner.change (code.foldl Function.put ·)).Ready := ⟨hready.loadStr, hready.loadConst⟩
  rw [loadCode_instrs hcode hready, foldl_put, loadCode_cons, hclose _ hinner, Option.bind_some]
  refine loadCode_nil.trans (congrArg some ?_)
  simp [Loader.change, Loader.current, inner]

end Texts

/-! What loading an item does to the functions. -/

section Items

variable {l : Loader} {defs : Definitions} {code : List Instr} {label : Nat}

theorem ready_initLoad (l : Loader) : l.initLoad.Ready := ⟨rfl, rfl⟩

/-- The main program is not one of the functions that are called. -/
theorem Compiled.update_main {functions : Nat → Function} (h : Compiled defs functions) (f : Function) :
    Compiled defs (Function.update functions 0 f) := by
  intro function hfunction
  rw [Function.update_of_ne hfunction]
  exact h function hfunction

theorem Loop.below_none (label : Nat) (h : 0 < label) : Loop.none.Below label := ⟨h, h⟩

theorem load_line {line : Stmts} (hdefs : Compiled defs l.functions) (hok : line.Ok)
    (hgen : line.generate .none 1 = some (code, label)) (hlabel : label ≤ 65536) :
    ∃ l', loadCode l.initLoad (code.flatMap Instr.text) = some l' ∧ Compiled defs l'.functions ∧
      CodeAt (l'.functions 0) 0 code ∧ (l'.functions 0).body.length = codeSize code := by
  have hcode := line.generated hok (Loop.below_none 1 Nat.one_pos) hgen
  have hload := @loadCode_instrs l.initLoad [] code (hcode.ok hlabel) (ready_initLoad l)
  rw [List.append_nil, loadCode_nil, foldl_put] at hload
  refine ⟨_, hload, (hdefs.update_main _).update_main _, ?_, ?_⟩
  · have hat : CodeAt (code.foldl Function.put Function.empty) 0 code := codeAt_foldl_put Function.empty hcode.nodup
    simpa [Loader.change, Loader.current, Loader.initLoad] using hat
  · simp [Loader.change, Loader.current, Loader.initLoad, body_foldl_put, codeSize, Function.empty]

theorem codeAt_congr {f f' : Function} (hbody : f.body = f'.body) (hlabels : f.labels = f'.labels) {a : Nat}
    (h : CodeAt f a code) : CodeAt f' a code := by
  induction code generalizing a with
  | nil => trivial
  | cons i code ih =>
    obtain ⟨hinstr, hcode⟩ := h
    rw [InstrAt, hbody, hlabels] at hinstr
    exact ⟨hinstr, ih hcode⟩

theorem foldl_put_params (f : Function) (code : List Instr) :
    (code.foldl Function.put f).params = f.params ∧ (code.foldl Function.put f).autos = f.autos := by
  induction code generalizing f with
  | nil => exact ⟨rfl, rfl⟩
  | cons i code ih =>
    rw [List.foldl_cons, (ih _).1, (ih _).2]
    cases i <;> exact ⟨rfl, rfl⟩

theorem load_define {function : Nat} {d : Definition} (hdefs : Compiled defs l.functions) (hok : d.body.Ok)
    (hgen : d.generate = some code)
    (hlabel : ∀ code label, d.body.generate .none 1 = some (code, label) → label ≤ 65536) (hfunction : function ≠ 0) :
    ∃ l', loadCode l.initLoad (d.text function code) = some l' ∧
      Compiled (Function.update defs function (some d)) l'.functions ∧ (l'.functions 0).body = [] := by
  have hsome := hgen
  rw [Definition.generate, Option.ite_none_right_eq_some] at hgen
  obtain ⟨hcheck, hgen⟩ := hgen
  obtain ⟨⟨bodyCode, label⟩, hbody, rfl⟩ := Option.map_eq_some_iff.mp hgen
  have hautos : ∀ auto ∈ d.autos, auto.argIsVar = false := by
    simp only [checkParams, Bool.and_eq_true, List.all_eq_true, Bool.not_eq_true'] at hcheck
    exact hcheck.1.2
  have hcode : Generated 1 (bodyCode ++ [.op .zero, .op .return]) label :=
    (d.body.generated hok (Loop.below_none 1 Nat.one_pos) hbody).append (.append .op .op)
  refine ⟨_, loadCode_define (ready_initLoad l) hautos (hcode.ok (hlabel _ _ hbody)), ?_, ?_⟩
  · intro other hother
    by_cases heq : other = function
    · subst heq
      set f : Function := { Function.empty with params := d.params.reverse, autos := d.autos.reverse }
      obtain ⟨hparams, hautos⟩ := foldl_put_params f (bodyCode ++ [Instr.op .zero, .op .return])
      have hat := codeAt_foldl_put f hcode.nodup
      rw [show f.body.length = 0 from rfl] at hat
      simp only [Function.update_self]
      refine ⟨hok, _, hsome, trivial, hparams, hautos, codeAt_congr ?_ ?_ hat⟩
      · rfl
      · rfl
    · simp only [Function.update_of_ne heq]
      exact hdefs.update_main _ other hother
  · simp [Function.update_of_ne (Ne.symm hfunction), Loader.initLoad, Function.empty]

end Items

/-! The items of a program, one after the other. -/

/-- What a program means. An error is the end of its line only; where `bc` itself ends before the last item, there is
the reason. -/
def runProgram (env : Env) (fuel : Nat) : Definitions → List Item → Storage → Option (Option Stop × Storage)
  | _, [], s => some (none, s)
  | defs, .define function d :: items, s => runProgram env fuel (Function.update defs function (some d)) items s
  | defs, .line body :: items, s =>
    match runLine env defs fuel body s with
    | none => none
    | some (.error .exited, s) => some (some .exited, s)
    | some (.error .undefined, s) => some (some .undefined, s)
    | some (_, s) => runProgram env fuel defs items s

/-- What `bc` does: the text of an item is loaded, and the machine runs until it halts. -/
inductive Runs (env : Env) : Loader → List Item → Storage → Option Stop → Storage → Prop
  | done (l : Loader) (s : Storage) : Runs env l [] s none s
  | next {l l' : Loader} {item : Item} {items : List Item} {text : List Char} {s s' : Storage} {n : Nat} {m : Machine}
      {why : Option Stop} (htext : item.text = some text) (hload : loadCode l.initLoad text = some l')
      (hsteps : Steps (Step env l'.functions) n (.start s) m) (hhalted : Halted (Step env l'.functions) m)
      (hgoes : m.status = none ∨ m.status = some .error)
      (hrest : Runs env l' items (m.finish l'.functions) why s') : Runs env l (item :: items) s why s'
  | stops {l l' : Loader} {item : Item} {items : List Item} {text : List Char} {s : Storage} {n : Nat} {m : Machine}
      {why : Stop} (htext : item.text = some text) (hload : loadCode l.initLoad text = some l')
      (hsteps : Steps (Step env l'.functions) n (.start s) m) (hhalted : Halted (Step env l'.functions) m)
      (hstatus : m.status = some why) (hwhy : why ≠ .error) : Runs env l (item :: items) s (some why) m.storage

/-- Nothing is left to compare but the writing where `bc` has ended early. -/
def Same : Option Stop → Storage → Storage → Prop
  | none, s, s' => s = s'
  | some .undefined, _, _ => True
  | some _, s, s' => s.output = s'.output ∧ s.messages = s'.messages

section Programs

variable {env : Env} {defs : Definitions} {l : Loader} {items : List Item} {s s' : Storage} {why : Option Stop} {fuel : Nat}

/-- A definition is all text: there is nothing to run in the main program. -/
theorem halted_start {functions : Nat → Function} (h : (functions 0).body = []) :
    Halted (Step env functions) (.start s) := halted_at_end (le_of_eq (congrArg List.length h))

theorem runs_of_runProgram (hitems : ∀ item ∈ items, item.Ok ∧ item.text ≠ none) (hdefs : Compiled defs l.functions)
    (h : runProgram env fuel defs items s = some (why, s')) : ∃ s'', Runs env l items s why s'' ∧ Same why s' s'' := by
  induction items generalizing defs l s with
  | nil =>
    cases h
    exact ⟨s', .done l s', rfl⟩
  | cons item items ih =>
    obtain ⟨⟨hok, htext⟩, hrest⟩ := List.forall_mem_cons.mp hitems
    obtain ⟨text, htext⟩ := Option.ne_none_iff_exists'.mp htext
    cases item with
    | define function d =>
      obtain ⟨code, hgen, rfl⟩ := Option.map_eq_some_iff.mp htext
      obtain ⟨l', hload, hdefs, hbody⟩ := load_define hdefs hok.2.2.1 hgen hok.2.2.2 (Nat.ne_of_gt hok.1)
      obtain ⟨s'', hruns, hsame⟩ := ih hrest hdefs h
      exact ⟨s'', .next htext hload (.refl _) (halted_start hbody) (Or.inl rfl) hruns, hsame⟩
    | line body =>
      have hsome := htext
      obtain ⟨⟨code, label⟩, hgen, rfl⟩ := Option.map_eq_some_iff.mp htext
      obtain ⟨l', hload, hdefs', hcode, hlen⟩ := load_line hdefs hok.1 hgen (hok.2 _ _ hgen)
      have hline := (@runLine_iff_halts env _ _ _ _ _ hdefs' hok.1 hgen hcode hlen s).1 fuel
      rw [runProgram] at h
      match hresult : runLine env defs fuel body s, h with
      | some (.ok (), s1), h =>
        obtain ⟨n, m, hsteps, hhalted, hstatus, hfinish⟩ := hline _ hresult
        obtain ⟨s'', hruns, hsame⟩ := ih hrest hdefs' h
        exact ⟨s'', .next hsome hload hsteps hhalted (Or.inl hstatus) (hfinish ▸ hruns), hsame⟩
      | some (.error .error, s1), h =>
        obtain ⟨n, m, hsteps, hhalted, hstatus, hfinish⟩ := hline _ hresult
        obtain ⟨s'', hruns, hsame⟩ := ih hrest hdefs' h
        exact ⟨s'', .next hsome hload hsteps hhalted (Or.inr hstatus) (hfinish ▸ hruns), hsame⟩
      | some (.error .exited, s1), h =>
        obtain ⟨n, m, hsteps, hhalted, hstatus, houtput, hmessages⟩ := hline _ hresult
        cases h
        exact ⟨_, .stops hsome hload hsteps hhalted hstatus nofun, houtput.symm, hmessages.symm⟩
      | some (.error .undefined, s1), h =>
        obtain ⟨n, m, hsteps, hhalted, hstatus⟩ := hline _ hresult
        cases h
        exact ⟨_, .stops hsome hload hsteps hhalted hstatus nofun, trivial⟩

/-- The fuel is that of the line that takes most. -/
theorem runProgram_of_runs (hitems : ∀ item ∈ items, item.Ok ∧ item.text ≠ none) (hdefs : Compiled defs l.functions)
    (h : Runs env l items s why s') :
    ∃ most, ∀ fuel, most < fuel → ∃ s'', runProgram env fuel defs items s = some (why, s'') ∧ Same why s'' s' := by
  induction h generalizing defs with
  | done l s => exact ⟨0, fun fuel _ => ⟨s, rfl, rfl⟩⟩
  | @next l l' item items text s s' n m why htext hload hsteps hhalted hgoes hrun ih =>
    obtain ⟨⟨hok, -⟩, hrest⟩ := List.forall_mem_cons.mp hitems
    cases item with
    | define function d =>
      obtain ⟨code, hgen, rfl⟩ := Option.map_eq_some_iff.mp htext
      obtain ⟨l1, hload1, hdefs', hbody⟩ := load_define hdefs hok.2.2.1 hgen hok.2.2.2 (Nat.ne_of_gt hok.1)
      obtain rfl := Option.some.inj (hload1.symm.trans hload)
      cases hsteps with
      | refl => exact ih hrest hdefs'
      | head first => exact absurd first (halted_start hbody _)
    | line body =>
      obtain ⟨⟨code, label⟩, hgen, rfl⟩ := Option.map_eq_some_iff.mp htext
      obtain ⟨l1, hload1, hdefs', hcode, hlen⟩ := load_line hdefs hok.1 hgen (hok.2 _ _ hgen)
      obtain rfl := Option.some.inj (hload1.symm.trans hload)
      obtain ⟨most, hmost⟩ := ih hrest hdefs'
      refine ⟨max n most, fun fuel hfuel => ?_⟩
      obtain ⟨hn, hfuel⟩ := max_lt_iff.mp hfuel
      obtain ⟨result, hresult, hends⟩ := (runLine_iff_halts hdefs' hok.1 hgen hcode hlen s).2 n m fuel hsteps hhalted hn
      obtain ⟨s'', hprogram, hsame⟩ := hmost fuel hfuel
      rw [runProgram, hresult]
      match result, hends with
      | (.ok (), s1), ⟨_, hfinish⟩ => exact ⟨s'', hfinish ▸ hprogram, hsame⟩
      | (.error .error, s1), ⟨_, hfinish⟩ => exact ⟨s'', hfinish ▸ hprogram, hsame⟩
      | (.error .exited, s1), ⟨hstatus, _⟩ => simp [hstatus] at hgoes
      | (.error .undefined, s1), hends =>
        have hstatus : m.status = some .undefined := hends
        simp [hstatus] at hgoes
  | @stops l l' item items text s n m why htext hload hsteps hhalted hstatus hwhy =>
    obtain ⟨⟨hok, -⟩, -⟩ := List.forall_mem_cons.mp hitems
    cases item with
    | define function d =>
      obtain ⟨code, hgen, rfl⟩ := Option.map_eq_some_iff.mp htext
      obtain ⟨l1, hload1, -, hbody⟩ := load_define hdefs hok.2.2.1 hgen hok.2.2.2 (Nat.ne_of_gt hok.1)
      obtain rfl := Option.some.inj (hload1.symm.trans hload)
      cases hsteps with
      | refl => exact absurd hstatus nofun
      | head first => exact absurd first (halted_start hbody _)
    | line body =>
      obtain ⟨⟨code, label⟩, hgen, rfl⟩ := Option.map_eq_some_iff.mp htext
      obtain ⟨l1, hload1, hdefs', hcode, hlen⟩ := load_line hdefs hok.1 hgen (hok.2 _ _ hgen)
      obtain rfl := Option.some.inj (hload1.symm.trans hload)
      refine ⟨n, fun fuel hfuel => ?_⟩
      obtain ⟨result, hresult, hends⟩ := (runLine_iff_halts hdefs' hok.1 hgen hcode hlen s).2 n m fuel hsteps hhalted hfuel
      rw [runProgram, hresult]
      match result, hends with
      | (.ok (), s1), ⟨hnone, _⟩ => exact absurd (hnone.symm.trans hstatus) nofun
      | (.error .error, s1), ⟨herror, _⟩ => exact absurd (Option.some.inj (hstatus.symm.trans herror)) hwhy
      | (.error .exited, s1), ⟨hexited, houtput, hmessages⟩ =>
        obtain rfl := Option.some.inj (hstatus.symm.trans hexited)
        exact ⟨s1, rfl, houtput.symm, hmessages.symm⟩
      | (.error .undefined, s1), hends =>
        obtain rfl := Option.some.inj (hstatus.symm.trans (show m.status = some .undefined from hends))
        exact ⟨s1, rfl, trivial⟩

end Programs

/-- No function is there yet. -/
def Loader.start : Loader := ⟨fun _ => .empty, 0, false, false, 0⟩

theorem compiled_start : Compiled (fun _ => none) Loader.start.functions := fun _ _ => rfl

/-- A function that doubles its parameter, and a line that calls it. -/
def doubled : List Item :=
  [.define 1 ⟨[⟨5, false⟩], [], .cons (.return (some (.arith .mul (.named (.simple 5)) (.number [2] [])))) .nil⟩,
    .line (.cons (.expression (.call 1 (.value (.number [3] []) .nil))) .nil)]

def Env.plain : Env := ⟨⟨9223372036854775807, 2147483647, by decide⟩, fun _ _ => none, 70, false, fun _ => "", fun _ => ""⟩

example : doubled.map (fun item => item.text.map String.ofList) = [some "F1,5.[l5:K2:*R0R]", some "K3:C1,0:W"] := by decide

end Bc

end DeviceDriverTest
