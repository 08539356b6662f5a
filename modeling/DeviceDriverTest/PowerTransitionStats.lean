import DeviceDriverTest.HandlerError

/-! The handler that logs a counter of the power domain table to a file and
compares two logged values. -/

namespace DeviceDriverTest

namespace PowerTransitionStats

/-- What differs between shells and directories: the names a word with pattern
characters stands for, `grep`, `echo`, the `[ ... ]` forms that are not
specified, and the names a redirection can create. -/
structure Shell where
  glob : String → List String
  grep : List String → List String → List String
  echo : List String → String
  test : List String → Nat
  creates : String → Bool
  glob_plain : ∀ word, (∀ c ∈ word.toList, c ∉ ['*', '?', '[']) → glob word = [word]
  echo_nil : echo [] = ""

def words (text : String) : List String :=
  ((text.toList.splitOnP (· ∈ [' ', '\t', '\n'])).filter (· ≠ [])).map String.ofList

def Shell.expand (sh : Shell) (text : String) : List String := (words text).flatMap sh.glob

def number? (word : List Char) : Option Nat :=
  if word ≠ [] ∧ word.all Char.isDigit then
    some (word.foldl (fun n c => 10 * n + (c.toNat - '0'.toNat)) 0)
  else none

/-- The numbers every shell can compare. -/
def operand? (word : String) : Option Nat := (number? word.toList).filter (· < 2147483648)

def Shell.bracket (sh : Shell) : List String → Nat
  | [word] => if word = "" then 1 else 0
  | [left, operator, right] =>
    match operand? left, operand? right with
    | some m, some n =>
      if operator = "-eq" then if m = n then 0 else 1
      else if operator = "-gt" then if n < m then 0 else 1
      else sh.test [left, operator, right]
    | _, _ => sh.test [left, operator, right]
  | args => sh.test args

/-- Field zero is an error, which prints nothing. -/
def cut (delimiter : Char) (field : Nat) (lines : List String) : List String :=
  if field = 0 then []
  else lines.map fun line =>
    if delimiter ∈ line.toList then
      String.ofList ((line.toList.splitOn delimiter).getD (field - 1) [])
    else line

abbrev Tmp := String → Option String

def pwrStatePlace (pwr_state : String) : Nat :=
  if pwr_state = "DEVICE-OFF" then 1
  else if pwr_state = "OFF" then 2
  else if pwr_state = "RET" then 3
  else if pwr_state = "INA" then 4
  else if pwr_state = "ON" then 5
  else if pwr_state = "RET-LOGIC-OFF" then 6
  else 0

def logFile (pwrdm pwr_state log_name : String) : String :=
  "pts." ++ pwrdm ++ "." ++ pwr_state ++ "." ++ log_name

def pwrdmValue (sh : Shell) (pmCount : List String) (pwrdm pwr_state : String) : String :=
  let pwrdm_stat := cut ',' (pwrStatePlace pwr_state) (sh.grep (sh.expand ("^" ++ pwrdm)) pmCount)
  let pwrdm_value := cut ':' 2 [sh.echo (pwrdm_stat.flatMap sh.expand)]
  sh.echo (pwrdm_value.flatMap sh.expand)

def log (sh : Shell) (pmCount : List String) (pwrdm pwr_state log_name : String) (tmp : Tmp) : Tmp :=
  fun name =>
    if name = logFile pwrdm pwr_state log_name ∧ sh.creates name then
      some (pwrdmValue sh pmCount pwrdm pwr_state)
    else tmp name

def value (sh : Shell) (tmp : Tmp) (name : String) : List String :=
  (sh.expand name).flatMap fun file => sh.expand ((tmp file).getD "")

def compare (sh : Shell) (pwrdm pwr_state log_name_before log_name_after : String) (tmp : Tmp) : Nat :=
  let val_before := value sh tmp (logFile pwrdm pwr_state log_name_before)
  let val_after := value sh tmp (logFile pwrdm pwr_state log_name_after)
  if sh.bracket (val_before ++ ["-eq"] ++ val_after) = 0 then 1
  else if sh.bracket (val_after ++ ["-gt"] ++ val_before) = 0 then 0
  else 1

/-- What a call of the handler finds: the error files and the lines of `$PM_COUNT`. -/
structure Moment where
  files : HandlerError.Files String
  pmCount : List String

def handlerPowerTransitionStats (sh : Shell) (now : Moment) (args : List String) (tmp : Tmp) : Nat × Tmp :=
  let arg n := args.getD n ""
  if (HandlerError.test now.files).exit = 1 then (1, tmp)
  else if arg 0 = "log" then (0, log sh now.pmCount (arg 1) (arg 2) (arg 3) tmp)
  else if arg 0 = "compare" then (compare sh (arg 1) (arg 2) (arg 3) (arg 4) tmp, tmp)
  else (0, tmp)

/-! Names of the log files. -/

theorem split_unique {sep : Char} {a b c d : List Char} (ha : sep ∉ a) (hc : sep ∉ c)
    (h : a ++ sep :: b = c ++ sep :: d) : a = c ∧ b = d := by
  induction a generalizing c with
  | nil =>
    cases c with
    | nil => exact ⟨rfl, (List.cons.inj h).2⟩
    | cons y c => exact absurd (List.cons.inj h).1 fun heq => hc (heq ▸ List.mem_cons_self)
  | cons x a ih =>
    cases c with
    | nil => exact absurd (List.cons.inj h).1 fun heq => ha (heq ▸ List.mem_cons_self)
    | cons y c =>
      obtain ⟨rfl, htail⟩ := List.cons.inj h
      obtain ⟨rfl, rfl⟩ := ih (fun hx => ha (List.mem_cons_of_mem _ hx))
        (fun hy => hc (List.mem_cons_of_mem _ hy)) htail
      exact ⟨rfl, rfl⟩

theorem logFile_toList (p s l : String) :
    (logFile p s l).toList =
      ['p', 't', 's', '.'] ++ (p.toList ++ '.' :: (s.toList ++ '.' :: l.toList)) := by
  simp [logFile]

/-- A name made of parts without a dot is made in that way only. -/
theorem logFile_inj {p s l p' s' l' : String} (hp : '.' ∉ p.toList) (hs : '.' ∉ s.toList)
    (hl : '.' ∉ l.toList) (h : logFile p' s' l' = logFile p s l) : p' = p ∧ s' = s ∧ l' = l := by
  have hlist : p'.toList ++ '.' :: (s'.toList ++ '.' :: l'.toList) =
      p.toList ++ '.' :: (s.toList ++ '.' :: l.toList) := by
    have hfull := congrArg String.toList h
    rw [logFile_toList, logFile_toList] at hfull
    exact List.append_cancel_left hfull
  have hdots : p'.toList.count '.' = 0 ∧ s'.toList.count '.' = 0 := by
    have hcount := congrArg (List.count '.') hlist
    simp only [List.count_append, List.count_cons_self, List.count_eq_zero_of_not_mem hp,
      List.count_eq_zero_of_not_mem hs, List.count_eq_zero_of_not_mem hl] at hcount
    omega
  obtain ⟨hpp, hrest⟩ := split_unique (List.count_eq_zero.mp hdots.1) hp hlist
  obtain ⟨hss, hll⟩ := split_unique (List.count_eq_zero.mp hdots.2) hs hrest
  exact ⟨String.toList_injective hpp, String.toList_injective hss, String.toList_injective hll⟩

/-! Values that were never logged. -/

theorem expand_empty (sh : Shell) : sh.expand "" = [] := rfl

def PlainChar (c : Char) : Prop := c ∉ [' ', '\t', '\n'] ∧ c ∉ ['*', '?', '[']

/-- A word the shell passes on as it is. -/
def Plain (word : String) : Prop := word.toList ≠ [] ∧ ∀ c ∈ word.toList, PlainChar c

/-- A part of a log file's name that can be read back from the name. -/
def FilePart (part : String) : Prop := ∀ c ∈ part.toList, PlainChar c ∧ c ≠ '.'

theorem FilePart.dotless {part : String} (h : FilePart part) : '.' ∉ part.toList :=
  fun hdot => (h _ hdot).2 rfl

theorem plain_logFile {p s l : String} (hp : FilePart p) (hs : FilePart s) (hl : FilePart l) :
    Plain (logFile p s l) := by
  have hlead : ∀ c ∈ ['p', 't', 's', '.'], PlainChar c := by simp [PlainChar]
  have hdot : PlainChar '.' := hlead _ (by simp)
  rw [Plain, logFile_toList]
  refine ⟨List.cons_ne_nil _ _, fun c hc => ?_⟩
  rcases List.mem_append.mp hc with hc | hc
  · exact hlead c hc
  rcases List.mem_append.mp hc with hc | hc
  · exact (hp c hc).1
  rcases List.mem_cons.mp hc with rfl | hc
  · exact hdot
  rcases List.mem_append.mp hc with hc | hc
  · exact (hs c hc).1
  rcases List.mem_cons.mp hc with rfl | hc
  · exact hdot
  · exact (hl c hc).1

theorem expand_plain (sh : Shell) {word : String} (h : Plain word) : sh.expand word = [word] := by
  have hwords : words word = [word] := by
    rw [words, List.splitOnP_eq_singleton fun c hc => by simpa using (h.2 c hc).1]
    simp [h.1]
  rw [Shell.expand, hwords, List.flatMap_singleton]
  exact sh.glob_plain word fun c hc => (h.2 c hc).2

theorem pwrdmValue_misplaced (sh : Shell) (pmCount : List String) (pwrdm : String)
    {pwr_state : String} (h : pwrStatePlace pwr_state = 0) :
    pwrdmValue sh pmCount pwrdm pwr_state = "" := by
  simp [pwrdmValue, h, cut, sh.echo_nil, expand_empty]

/-- Nothing but blanks is in the files whose second part names no power state. -/
def Unmeasured (tmp : Tmp) : Prop :=
  ∀ p s l, '.' ∉ p.toList → '.' ∉ s.toList → '.' ∉ l.toList → pwrStatePlace s = 0 →
    (tmp (logFile p s l)).getD "" = ""

theorem Unmeasured.log {tmp : Tmp} (h : Unmeasured tmp) (sh : Shell) (pmCount : List String)
    (pwrdm pwr_state log_name : String) :
    Unmeasured (log sh pmCount pwrdm pwr_state log_name tmp) := by
  intro p s l hp hs hl hplace
  unfold PowerTransitionStats.log
  split
  · rename_i hname
    obtain ⟨rfl, rfl, rfl⟩ := logFile_inj hp hs hl hname.1.symm
    exact pwrdmValue_misplaced sh pmCount _ hplace
  · exact h p s l hp hs hl hplace

theorem Unmeasured.call {tmp : Tmp} (h : Unmeasured tmp) (sh : Shell) (now : Moment)
    (args : List String) : Unmeasured (handlerPowerTransitionStats sh now args tmp).2 := by
  unfold handlerPowerTransitionStats
  dsimp only
  split
  · exact h
  split
  · exact h.log sh now.pmCount _ _ _
  split
  · exact h
  · exact h

theorem Unmeasured.value {tmp : Tmp} (h : Unmeasured tmp) (sh : Shell) {p s l : String}
    (hp : FilePart p) (hs : FilePart s) (hl : FilePart l) (hplace : pwrStatePlace s = 0) :
    value sh tmp (logFile p s l) = [] := by
  rw [PowerTransitionStats.value, expand_plain sh (plain_logFile hp hs hl), List.flatMap_singleton,
    h p s l hp.dotless hs.dotless hl.dotless hplace, expand_empty]

theorem compare_nothing {sh : Shell} {tmp : Tmp} {p s before after : String}
    (hbefore : value sh tmp (logFile p s before) = [])
    (hafter : value sh tmp (logFile p s after) = []) : compare sh p s before after tmp = 1 := by
  simp [compare, hbefore, hafter, Shell.bracket]

/-! Values that were logged under the names they are compared by. -/

theorem value_logged {sh : Shell} {pmCount : List String} {p s l : String} (tmp : Tmp)
    (hplain : Plain (logFile p s l)) (hcreates : sh.creates (logFile p s l) = true) :
    value sh (log sh pmCount p s l tmp) (logFile p s l) = sh.expand (pwrdmValue sh pmCount p s) := by
  rw [value, expand_plain sh hplain, List.flatMap_singleton, log, if_pos ⟨rfl, hcreates⟩]
  rfl

theorem value_other {sh : Shell} {pmCount : List String} {p s l l' : String} (tmp : Tmp)
    (hplain : Plain (logFile p s l)) (hne : logFile p s l ≠ logFile p s l') :
    value sh (log sh pmCount p s l' tmp) (logFile p s l) = value sh tmp (logFile p s l) := by
  simp only [value, expand_plain sh hplain, List.flatMap_singleton, log, hne, false_and, if_false]

/-- Logged and compared under the same domain and state, two counters are told apart. -/
theorem compare_logged_iff {sh : Shell} {before after : List String} {p s l l' x y : String}
    {m n : Nat} (tmp : Tmp) (hplain : Plain (logFile p s l)) (hplain' : Plain (logFile p s l'))
    (hcreates : sh.creates (logFile p s l) = true) (hcreates' : sh.creates (logFile p s l') = true)
    (hne : logFile p s l ≠ logFile p s l') (hx : sh.expand (pwrdmValue sh before p s) = [x])
    (hy : sh.expand (pwrdmValue sh after p s) = [y]) (hm : operand? x = some m)
    (hn : operand? y = some n) :
    compare sh p s l l' (log sh after p s l' (log sh before p s l tmp)) = 0 ↔ m < n := by
  have hbefore : value sh (log sh after p s l' (log sh before p s l tmp)) (logFile p s l) = [x] := by
    rw [value_other _ hplain hne, value_logged _ hplain hcreates, hx]
  have hafter : value sh (log sh after p s l' (log sh before p s l tmp)) (logFile p s l') = [y] := by
    rw [value_logged _ hplain' hcreates', hy]
  have hsame : sh.bracket [x, "-eq", y] = 0 ↔ m = n := by
    simp [Shell.bracket, hm, hn]
  have hgreater : sh.bracket [y, "-gt", x] = 0 ↔ m < n := by
    simp [Shell.bracket, hm, hn]
  simp only [compare, hbefore, hafter, List.cons_append, List.nil_append]
  split
  · rename_i heq
    have hmn := hsame.mp heq
    omega
  split
  · rename_i hgt
    simpa using hgreater.mp hgt
  · rename_i hgt
    simpa using fun hlt => hgt (hgreater.mpr hlt)

end PowerTransitionStats

end DeviceDriverTest
