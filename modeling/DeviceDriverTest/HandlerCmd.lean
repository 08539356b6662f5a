import Mathlib.Algebra.Group.Nat.Defs
import DeviceDriverTest.HandlerError
import DeviceDriverTest.TestRunnerOptions

/-! The handler that runs a list of commands, once or in rounds. The list is one
operand, and is taken apart by way of the words of the shell. -/

namespace DeviceDriverTest

namespace HandlerCmd

open TestRunner (Word)
open TestRunnerOptions (isBlank expand)
open FieldSplitting

structure World (ω : Type) where
  files : HandlerError.Files String
  others : ω

/-- A command returns to the script, or ends it. -/
inductive Answer (ω : Type)
  | returns (status : Nat) (world : World ω)
  | exits (status : Nat) (world : World ω)

/-- What the script finds in the shell: pathname expansion (only words with pattern characters
stand for other words) and the commands. -/
structure Shell (ω : Type) where
  glob : World ω → Word → List Word
  plain : ∀ world word, (∀ c ∈ word, c ∉ ['*', '?', '[']) → glob world word = [word]
  eval : World ω → Word → Answer ω
  sleep : Nat → World ω → World ω

def isEchoOption : Word → Bool
  | '-' :: c :: cs => (c :: cs).all fun x => x = 'n' || x = 'e' || x = 'E'
  | _ => false

def letterEscape : Char → Option Char
  | 'a' => some '\x07'
  | 'b' => some '\x08'
  | 'e' | 'E' => some '\x1b'
  | 'f' => some '\x0c'
  | 'n' => some '\n'
  | 'r' => some '\r'
  | 't' => some '\t'
  | 'v' => some '\x0b'
  | '\\' => some '\\'
  | _ => none

/-- The base, and how many digits there are at most. -/
def numberEscape : Char → Option (Nat × Nat)
  | '0' => some (8, 3)
  | 'x' => some (16, 2)
  | 'u' => some (16, 4)
  | 'U' => some (16, 8)
  | _ => none

def digit (base : Nat) (c : Char) : Option Nat :=
  let value := if c.isDigit then c.toNat - '0'.toNat
    else if 'a' ≤ c ∧ c ≤ 'f' then 10 + (c.toNat - 'a'.toNat)
    else if 'A' ≤ c ∧ c ≤ 'F' then 10 + (c.toNat - 'A'.toNat)
    else base
  if value < base then some value else none

def digits (base : Nat) : Nat → Word → List Nat
  | 0, _ | _, [] => []
  | most + 1, c :: cs =>
    match digit base c with
    | some value => value :: digits base most cs
    | none => []

/-- A substitution drops the character with the number zero. -/
def numbered (base : Nat) (values : List Nat) : Word :=
  let number := values.foldl (fun number value => number * base + value) 0
  let number := if base = 8 then number % 256 else number
  if number = 0 then [] else [Char.ofNat number]

def push (text : Word) (r : Word × Bool) : Word × Bool := (text ++ r.1, r.2)

/-- The escapes of a word, behind the characters that belong to the one before. A `\c` ends all output. -/
def ansicstr : Nat → Word → Word × Bool
  | _, [] => ([], false)
  | skip + 1, _ :: cs => ansicstr skip cs
  | 0, '\\' :: c :: cs =>
    if c = 'c' then ([], true)
    else
      match letterEscape c with
      | some x => push [x] (ansicstr 0 cs)
      | none =>
        match numberEscape c with
        | some (base, most) =>
          let values := digits base most cs
          if values = [] ∧ c ≠ '0' then push ['\\', c] (ansicstr 0 cs)
          else push (numbered base values) (ansicstr values.length cs)
        | none => push ['\\', c] (ansicstr 0 cs)
  | 0, c :: cs => push [c] (ansicstr 0 cs)

def echoEscaped : List Word → Word
  | [] => []
  | word :: words =>
    let r := ansicstr 0 word
    if r.2 then r.1 else if words = [] then r.1 else r.1 ++ ' ' :: echoEscaped words

/-- The last of the options `e` and `E` counts, and `escapes` where there is none. -/
def echo (escapes : Bool) (words : List Word) : Word :=
  let options := (words.takeWhile isEchoOption).flatten
  let words := words.dropWhile isEchoOption
  let escapes := ((options.filter fun c => c = 'e' || c = 'E').getLast?).elim escapes fun c => c = 'e'
  if escapes then echoEscaped words else List.intercalate [' '] words

def tr (a b : Char) (text : Word) : Word := text.map fun c => if c = a then b else c

/-- The arguments of `executeCommands`. The newline that `echo` adds would part no words. -/
def elements (glob : Word → List Word) (operand2 : Word) : List Word :=
  expand glob (tr ';' ' ' (tr ' ' ',' (echo true (expand glob operand2))))

/-- What `eval $execute` evaluates for one of them. -/
def evaluated (glob : Word → List Word) (element : Word) : Word :=
  let execute := tr ',' ' ' (echo false [element])
  List.intercalate [' '] (expand glob execute)

structure Executed where
  text : Word
  status : Nat

structure State (ω : Type) where
  world : World ω
  error_val : Bool
  executed : List Executed

inductive Flow (ω : Type)
  | goesOn (s : State ω)
  | exit (status : Nat) (s : State ω)

variable {ω : Type}

def Flow.andThen : Flow ω → (State ω → Flow ω) → Flow ω
  | .goesOn s, next => next s
  | .exit status s, _ => .exit status s

def executeCommands (sh : Shell ω) (s : State ω) : List Word → Flow ω
  | [] => .goesOn s
  | element :: rest =>
    let execute := evaluated (sh.glob s.world) element
    match sh.eval s.world execute with
    | .exits status world => .exit status ⟨world, s.error_val, s.executed ++ [⟨execute, status⟩]⟩
    | .returns status world =>
      executeCommands sh ⟨world, s.error_val || decide (0 < status), s.executed ++ [⟨execute, status⟩]⟩ rest

def verifyErrorFlag (s : State ω) : Flow ω :=
  if s.error_val then
    let files := HandlerError.log s.world.files HandlerError.failed .halt "handlerCmd.sh"
    .exit 1 { s with world := { s.world with files := files } }
  else .goesOn s

def round (sh : Shell ω) (operand2 : Word) (s : State ω) : Flow ω :=
  (executeCommands sh s (elements (sh.glob s.world) operand2)).andThen verifyErrorFlag

/-- The rounds that the counter has left. -/
def iterate (sh : Shell ω) (operand2 : Word) (delay : Nat) : Nat → State ω → Flow ω
  | 0, s => .goesOn s
  | left + 1, s => (round sh operand2 s).andThen fun s =>
    iterate sh operand2 delay left { s with world := sh.sleep delay s.world }

/-- The operations, with operands that are found to be right. -/
inductive Operation
  | run (operand2 : Word)
  | iterate (operand2 : Word) (iterations delay : Nat)

structure End (ω : Type) where
  status : Nat
  state : State ω

def finish : Flow ω → End ω
  | .goesOn s => ⟨if s.error_val then 1 else 0, s⟩
  | .exit status s => ⟨status, s⟩

/-- A number of `2 ^ 63` or more is none for the comparison, which then fails. -/
def main (sh : Shell ω) (world : World ω) (operation : Operation) : End ω :=
  let s : State ω := ⟨world, false, []⟩
  if (HandlerError.test world.files).exit = 1 then finish (.exit 1 s)
  else finish (match operation with
    | .run operand2 => round sh operand2 s
    | .iterate operand2 iterations delay =>
      iterate sh operand2 delay (if iterations < 2 ^ 63 then iterations else 0) s)

/-! The lists of commands. -/

def words (text : Word) : List Word := fields isBlank text

def join (commands : List Word) : Word := List.intercalate [';'] commands

def respaced (command : Word) : Word := List.intercalate [' '] (words command)

/-- Commands that the way through the words of the shell leaves alone, and that return to the script. -/
structure Ordinary (sh : Shell ω) (commands : List Word) : Prop where
  nonempty : ∀ c ∈ commands, words c ≠ []
  plain : ∀ c ∈ commands, ∀ x ∈ c, x ∉ [',', ';', '*', '?', '[']
  unescaped : ∀ w ∈ words (join commands), ansicstr 0 w = (w, false)
  first : ∀ w ∈ (words (join commands)).head?, isEchoOption w = false
  single : ∀ c ∈ commands, ∀ w, words c = [w] → isEchoOption w = false
  returns : ∀ c ∈ commands, ∀ world, ∃ status world', sh.eval world (respaced c) = .returns status world'

/-- The commands are executed the given number of times, and the status tells whether one failed. -/
structure AsClaimed (commands : List Word) (times : Nat) (e : End ω) : Prop where
  executed : e.state.executed.map (fun x => words x.text) = (List.replicate times (commands.map words)).flatten
  status : e.status ≠ 0 ↔ ∃ x ∈ e.state.executed, x.status ≠ 0

/-- They are executed in whole rounds, up to the given number or to the first in which one fails. -/
structure AsDesigned (commands : List Word) (times : Nat) (e : End ω) : Prop where
  rounds : ∃ done : List (List Executed), e.state.executed = done.flatten ∧ done.length ≤ times ∧
    (∀ xs ∈ done, xs.map (fun x => words x.text) = commands.map words) ∧
    (∀ xs ∈ done.dropLast, ∀ x ∈ xs, x.status = 0) ∧
    (done.length < times → ∃ xs ∈ done.getLast?, ∃ x ∈ xs, x.status ≠ 0)
  status : e.status ≠ 0 ↔ ∃ x ∈ e.state.executed, x.status ≠ 0

/-! The words of the shell. -/

theorem ansicstr_plain {word : Word} (h : '\\' ∉ word) : ansicstr 0 word = (word, false) := by
  induction word with
  | nil => rfl
  | cons c cs ih =>
    have hc : c ≠ '\\' := fun heq => h (heq ▸ List.mem_cons_self)
    rw [ansicstr.eq_def]
    simp [hc, ih fun hcs => h (List.mem_cons_of_mem c hcs), push]

theorem echoEscaped_unescaped {words : List Word} (h : ∀ w ∈ words, ansicstr 0 w = (w, false)) :
    echoEscaped words = List.intercalate [' '] words := by
  induction words with
  | nil => rfl
  | cons word words ih =>
    rw [echoEscaped, h word List.mem_cons_self]
    cases words with
    | nil => simp
    | cons next words =>
      rw [ih fun w hw => h w (List.mem_cons_of_mem word hw), List.intercalate_cons_cons]
      simp

theorem echo_unescaped {words : List Word} (hfirst : ∀ w ∈ words.head?, isEchoOption w = false)
    (h : ∀ w ∈ words, ansicstr 0 w = (w, false)) : echo true words = List.intercalate [' '] words := by
  cases words with
  | nil => rfl
  | cons word words =>
    have hword : isEchoOption word = false := hfirst word rfl
    rw [← echoEscaped_unescaped h]
    simp [echo, hword]

theorem echo_element {element : Word} (h : isEchoOption element = false) : echo false [element] = element := by
  simp [echo, h]

theorem isEchoOption_chars {word : Word} (h : isEchoOption word = true) :
    word ≠ [] ∧ ∀ c ∈ word, c = '-' ∨ c = 'n' ∨ c = 'e' ∨ c = 'E' := by
  unfold isEchoOption at h
  split at h
  · refine ⟨List.cons_ne_nil _ _, List.forall_mem_cons.mpr ⟨Or.inl rfl, fun c hc => Or.inr ?_⟩⟩
    have hall := List.all_eq_true.mp h c hc
    simpa [or_assoc] using hall
  · exact absurd h Bool.false_ne_true

theorem expand_plain (sh : Shell ω) (world : World ω) {text : Word} (h : ∀ c ∈ text, c ∉ ['*', '?', '[']) :
    expand (sh.glob world) text = words text := by
  have hwords : ∀ w ∈ words text, sh.glob world w = [w] :=
    fun w hw => sh.plain world w fun c hc => h c ((fields_mem hw).2 c hc).1
  exact (List.flatMap_congr hwords).trans (List.flatMap_singleton' _)

theorem tr_tr {text : Word} (h : ',' ∉ text) : tr ',' ' ' (tr ' ' ',' text) = text := by
  rw [tr, tr, List.map_map]
  refine (List.map_congr_left fun c hc => ?_).trans (List.map_id _)
  have hcomma : c ≠ ',' := fun heq => h (heq ▸ hc)
  by_cases hspace : c = ' '
  · simp [hspace]
  · simp [hspace, hcomma]

/-- Both substitutions on the list -/
def turned (x : Char) : Char := if x = ';' then ' ' else if x = ' ' then ',' else x

theorem tr_turned (text : Word) : tr ';' ' ' (tr ' ' ',' text) = text.map turned := by
  rw [tr, tr, List.map_map]
  refine List.map_congr_left fun x _ => ?_
  by_cases hspace : x = ' '
  · simp [turned, hspace]
  · simp [turned, hspace]

theorem isBlank_turned {x : Char} (h : isBlank x = true → x = ' ') : isBlank (turned x) = (x == ';') := by
  by_cases hsemicolon : x = ';'
  · rw [hsemicolon]
    rfl
  · by_cases hspace : x = ' '
    · rw [hspace]
      rfl
    · have hword : isBlank x = false := (Bool.not_eq_true _).mp (mt h hspace)
      simp [turned, hsemicolon, hspace, hword]

theorem turned_plain {x : Char} (h : x ∉ ['*', '?', '[']) : turned x ∉ ['*', '?', '['] := by
  by_cases hsemicolon : x = ';'
  · rw [hsemicolon]
    decide
  · by_cases hspace : x = ' '
    · rw [hspace]
      decide
    · rwa [turned, if_neg hsemicolon, if_neg hspace]

/-- A part of the list comes out of the loop's substitution as it was before the commas. -/
theorem evaluated_part (sh : Shell ω) (world : World ω) {part : Word} (hplain : ∀ x ∈ part, x ∉ [',', '*', '?', '['])
    (hsingle : ∀ w, words part = [w] → isEchoOption w = false) (hblank : ∀ x ∈ part, isBlank x = true → x = ' ') :
    evaluated (sh.glob world) (tr ' ' ',' part) = respaced part := by
  have hcomma : ',' ∉ part := fun hmem => hplain ',' hmem List.mem_cons_self
  have hoption : isEchoOption (tr ' ' ',' part) = false := by
    by_contra hoption
    rw [Bool.not_eq_false] at hoption
    obtain ⟨hne, hchars⟩ := isEchoOption_chars hoption
    have hspace : ∀ x ∈ part, x ≠ ' ' := by
      intro x hx heq
      have hmapped : ',' ∈ tr ' ' ',' part := List.mem_map.mpr ⟨x, hx, if_pos heq⟩
      simpa using hchars ',' hmapped
    have hsame : tr ' ' ',' part = part := (List.map_congr_left fun x hx => if_neg (hspace x hx)).trans (List.map_id _)
    rw [hsame] at hne hoption
    have hword : words part = [part] := fields_word hne fun x hx => by
      by_contra hx'
      exact hspace x hx (hblank x hx ((Bool.not_eq_false _).mp hx'))
    rw [hsingle part hword] at hoption
    exact Bool.false_ne_true hoption
  rw [evaluated, echo_element hoption, tr_tr hcomma, expand_plain sh world fun x hx => ?_]
  · rfl
  · intro hmem
    exact hplain x hx (List.mem_cons_of_mem ',' hmem)

variable {sh : Shell ω} {commands : List Word}

theorem splitOnP_join (hne : commands ≠ []) (h : ∀ c ∈ commands, ';' ∉ c) :
    (join commands).splitOnP (fun c => c == ';') = commands := by
  rw [join, ← List.splitOn_eq_splitOnP, List.splitOn_intercalate ';' h hne]

theorem parts_words (hne : commands ≠ []) (h : ∀ c ∈ commands, ';' ∉ c) :
    ((respaced (join commands)).splitOnP fun c => c == ';').map words = commands.map words := by
  have hblank : ∀ c, isBlank c = true → (c == ';') = false := by
    intro c hc
    refine beq_eq_false_iff_ne.mpr fun heq => ?_
    rw [heq] at hc
    exact absurd hc (by decide)
  have hspace : isBlank ' ' = true := rfl
  have hparts := fieldsOfParts_respaced hspace hblank (join commands)
  rw [fieldsOfParts, fieldsOfParts, splitOnP_join hne h] at hparts
  exact hparts

theorem command_of_part {parts : List Word} (h : parts.map words = commands.map words) {part : Word}
    (hpart : part ∈ parts) : ∃ c ∈ commands, words c = words part := by
  have hmem : words part ∈ parts.map words := List.mem_map_of_mem hpart
  rw [h] at hmem
  exact List.mem_map.mp hmem

theorem Ordinary.join_plain (h : Ordinary sh commands) : ∀ x ∈ join commands, x ∉ [',', '*', '?', '['] := by
  intro x hx hmem
  obtain rfl | ⟨c, hc, hx⟩ := intercalate_mem hx
  · exact absurd hmem (by decide)
  · apply h.plain c hc x hx
    simp only [List.mem_cons, List.not_mem_nil, or_false] at hmem ⊢
    tauto

theorem Ordinary.respaced_plain (h : Ordinary sh commands) :
    ∀ x ∈ respaced (join commands), x ∉ [',', '*', '?', '['] ∧ (isBlank x = true → x = ' ') := by
  intro x hx
  obtain rfl | ⟨w, hw, hx⟩ := intercalate_mem hx
  · exact ⟨by decide, fun _ => rfl⟩
  · obtain ⟨hmem, hword⟩ := (fields_mem hw).2 x hx
    exact ⟨h.join_plain x hmem, fun hblank => absurd (hword.symm.trans hblank) Bool.false_ne_true⟩

theorem Ordinary.echo_join (h : Ordinary sh commands) (world : World ω) :
    echo true (expand (sh.glob world) (join commands)) = respaced (join commands) := by
  rw [expand_plain sh world fun x hx hmem => h.join_plain x hx (List.mem_cons_of_mem ',' hmem)]
  exact echo_unescaped h.first h.unescaped

/-- The operand is taken apart into its commands, with commas for their blanks. -/
theorem Ordinary.elements_eq (h : Ordinary sh commands) (world : World ω) : ∃ parts : List Word,
    elements (sh.glob world) (join commands) = parts.map (tr ' ' ',') ∧ parts.map words = commands.map words ∧
      ∀ part ∈ parts, ∀ x ∈ part, x ∉ [',', '*', '?', '['] ∧ (isBlank x = true → x = ' ') := by
  by_cases hne : commands = []
  · refine ⟨[], ?_, by rw [hne], fun part hpart => absurd hpart List.not_mem_nil⟩
    rw [hne]
    rfl
  have hparts := parts_words hne fun c hc hmem => h.plain c hc ';' hmem (by decide)
  have hparted : ∀ x ∈ respaced (join commands), isBlank (turned x) = (x == ';') :=
    fun x hx => isBlank_turned (h.respaced_plain x hx).2
  have hwords : ∀ part ∈ (respaced (join commands)).splitOnP (fun c => c == ';'), (!part.isEmpty) = true := by
    intro part hpart
    obtain ⟨c, hc, hwords⟩ := command_of_part hparts hpart
    cases part with
    | nil => exact absurd hwords (h.nonempty c hc)
    | cons x part => rfl
  refine ⟨(respaced (join commands)).splitOnP fun c => c == ';', ?_, hparts, fun part hpart x hx => ?_⟩
  · rw [elements, h.echo_join, tr_turned, expand_plain, words, fields_map, fields_congr hparted, fields,
      List.filter_eq_self.mpr hwords]
    · refine List.map_congr_left fun part hpart => List.map_congr_left fun x hx => if_neg ?_
      simpa using (splitOnP_mem hpart x hx).2
    · intro x hx
      obtain ⟨y, hy, rfl⟩ := List.mem_map.mp hx
      exact turned_plain fun hmem => (h.respaced_plain y hy).1 (List.mem_cons_of_mem ',' hmem)
  · exact h.respaced_plain x (splitOnP_mem hpart x hx).1

/-! The loops. -/

theorem executeCommands_returns {arguments texts : List Word}
    (htexts : ∀ world, arguments.map (evaluated (sh.glob world)) = texts)
    (hreturns : ∀ text ∈ texts, ∀ world, ∃ status world', sh.eval world text = .returns status world') (s : State ω) :
    ∃ done world, done.map Executed.text = texts ∧ executeCommands sh s arguments =
      .goesOn ⟨world, s.error_val || done.any fun x => decide (0 < x.status), s.executed ++ done⟩ := by
  induction arguments generalizing texts s with
  | nil =>
    refine ⟨[], s.world, htexts s.world, ?_⟩
    rw [executeCommands, List.any_nil, Bool.or_false, List.append_nil]
  | cons argument rest ih =>
    have hne : texts ≠ [] := by
      rw [← htexts s.world]
      exact List.cons_ne_nil _ _
    obtain ⟨text, others, rfl⟩ := List.exists_cons_of_ne_nil hne
    have hhead : evaluated (sh.glob s.world) argument = text := (List.cons.inj (htexts s.world)).1
    obtain ⟨status, world, heval⟩ := hreturns text List.mem_cons_self s.world
    obtain ⟨done, world', hdone, hrest⟩ := ih (fun w => (List.cons.inj (htexts w)).2)
      (fun t ht => hreturns t (List.mem_cons_of_mem text ht))
      ⟨world, s.error_val || decide (0 < status), s.executed ++ [⟨text, status⟩]⟩
    refine ⟨⟨text, status⟩ :: done, world', by rw [List.map_cons, hdone], ?_⟩
    rw [executeCommands, hhead, heval]
    dsimp only
    rw [hrest, List.any_cons, Bool.or_assoc, List.append_assoc]
    rfl

theorem Ordinary.executeCommands (h : Ordinary sh commands) (s : State ω) :
    ∃ done world, done.map Executed.text = commands.map respaced ∧
      executeCommands sh s (elements (sh.glob s.world) (join commands)) =
        .goesOn ⟨world, s.error_val || done.any fun x => decide (0 < x.status), s.executed ++ done⟩ := by
  obtain ⟨parts, helements, hparts, hchars⟩ := h.elements_eq s.world
  have hrespaced : parts.map respaced = commands.map respaced := by
    have hmap := congrArg (List.map (List.intercalate [' '])) hparts
    rwa [List.map_map, List.map_map] at hmap
  rw [helements]
  apply executeCommands_returns
  · intro world
    rw [List.map_map, ← hrespaced]
    refine List.map_congr_left fun part hpart => ?_
    refine evaluated_part sh world (fun x hx => (hchars part hpart x hx).1) ?_ fun x hx => (hchars part hpart x hx).2
    obtain ⟨c, hc, hwords⟩ := command_of_part hparts hpart
    exact fun w hw => h.single c hc w (hwords.trans hw)
  · intro text htext
    obtain ⟨c, hc, rfl⟩ := List.mem_map.mp htext
    exact h.returns c hc

/-- The executed texts go in rounds, of which at most the last has a failure, and then ends the script. -/
inductive InRounds (texts : List Word) (n : Nat) (before : List Executed) : Flow ω → Prop
  | all {s : State ω} (done : List (List Executed)) (herror : s.error_val = false)
      (hexecuted : s.executed = before ++ done.flatten) (hlength : done.length = n)
      (hdone : ∀ xs ∈ done, xs.map Executed.text = texts ∧ ∀ x ∈ xs, x.status = 0) :
      InRounds texts n before (.goesOn s)
  | failed {s : State ω} (done : List (List Executed)) (last : List Executed)
      (hexecuted : s.executed = before ++ done.flatten ++ last) (hlength : done.length < n)
      (hlast : last.map Executed.text = texts ∧ ∃ x ∈ last, x.status ≠ 0)
      (hdone : ∀ xs ∈ done, xs.map Executed.text = texts ∧ ∀ x ∈ xs, x.status = 0) :
      InRounds texts n before (.exit 1 s)

/-- Rounds go on after rounds without a failure. -/
theorem InRounds.andThen {texts : List Word} {m n : Nat} {before : List Executed} {flow : Flow ω} {next : State ω → Flow ω}
    (h : InRounds texts m before flow) (hnext : ∀ s, s.error_val = false → InRounds texts n s.executed (next s)) :
    InRounds texts (m + n) before (flow.andThen next) := by
  cases h with
  | failed done last hexecuted hlength hlast hdone => exact .failed done last hexecuted (by omega) hlast hdone
  | @all s done herror hexecuted hlength hdone =>
    have hrest := hnext s herror
    rw [Flow.andThen]
    generalize next s = flow at hrest
    cases hrest with
    | failed done' last hexecuted' hlength' hlast hdone' =>
      apply InRounds.failed (done ++ done') last
      · rw [hexecuted', hexecuted, List.flatten_append, List.append_assoc before]
      · rw [List.length_append]
        omega
      · exact hlast
      · exact List.forall_mem_append.mpr ⟨hdone, hdone'⟩
    | all done' herror' hexecuted' hlength' hdone' =>
      apply InRounds.all (done ++ done') herror'
      · rw [hexecuted', hexecuted, List.flatten_append, List.append_assoc]
      · rw [List.length_append]
        omega
      · exact List.forall_mem_append.mpr ⟨hdone, hdone'⟩

theorem Ordinary.round (h : Ordinary sh commands) {s : State ω} (hs : s.error_val = false) :
    InRounds (commands.map respaced) 1 s.executed (round sh (join commands) s) := by
  obtain ⟨done, world, hdone, hexecute⟩ := h.executeCommands s
  rw [HandlerCmd.round, hexecute, hs, Bool.false_or, Flow.andThen, verifyErrorFlag]
  dsimp only
  cases hfailed : done.any fun x => decide (0 < x.status) with
  | true =>
    obtain ⟨x, hx, hstatus⟩ := List.any_eq_true.mp hfailed
    rw [if_pos rfl]
    apply InRounds.failed [] done
    · rw [List.flatten_nil, List.append_nil]
    · exact Nat.one_pos
    · exact ⟨hdone, x, hx, Nat.ne_of_gt (of_decide_eq_true hstatus)⟩
    · exact fun _ hxs => absurd hxs List.not_mem_nil
  | false =>
    rw [if_neg Bool.false_ne_true]
    apply InRounds.all [done] rfl
    · rw [List.flatten_singleton]
    · rfl
    · refine List.forall_mem_singleton.mpr ⟨hdone, fun x hx => ?_⟩
      have hnot := List.any_eq_false.mp hfailed x hx
      simpa using hnot

theorem Ordinary.iterate (h : Ordinary sh commands) (delay n : Nat) {s : State ω} (hs : s.error_val = false) :
    InRounds (commands.map respaced) n s.executed (iterate sh (join commands) delay n s) := by
  induction n generalizing s with
  | zero =>
    apply InRounds.all [] hs
    · rw [List.flatten_nil, List.append_nil]
    · rfl
    · exact fun _ hxs => absurd hxs List.not_mem_nil
  | succ n ih =>
    rw [HandlerCmd.iterate, Nat.add_comm]
    exact (h.round hs).andThen fun s' hs' => @ih { s' with world := sh.sleep delay s'.world } hs'

theorem words_respaced (command : Word) : words (respaced command) = words command := by
  have hspace : isBlank ' ' = true := rfl
  refine fields_intercalate_words hspace fun w hw => ?_
  obtain ⟨hne, hchars⟩ := fields_mem hw
  exact ⟨hne, fun c hc => (hchars c hc).2⟩

theorem words_executed {xs : List Executed} (h : xs.map Executed.text = commands.map respaced) :
    xs.map (fun x => words x.text) = commands.map words := by
  have hmap := congrArg (List.map words) h
  rw [List.map_map, List.map_map] at hmap
  exact hmap.trans (List.map_congr_left fun c _ => words_respaced c)

theorem asDesigned_finish {n : Nat} {flow : Flow ω} (h : InRounds (commands.map respaced) n [] flow) :
    AsDesigned commands n (finish flow) := by
  cases h with
  | all done herror hexecuted hlength hdone =>
    rw [List.nil_append] at hexecuted
    refine ⟨⟨done, hexecuted, Nat.le_of_eq hlength, fun xs hxs => words_executed (hdone xs hxs).1,
      fun xs hxs => (hdone xs (List.dropLast_subset done hxs)).2, fun hlt => absurd hlength (Nat.ne_of_lt hlt)⟩, ?_⟩
    refine iff_of_false (fun hstatus => hstatus (by rw [finish, herror]; rfl)) ?_
    rintro ⟨x, hx, hfailed⟩
    rw [finish, hexecuted] at hx
    obtain ⟨xs, hxs, hx⟩ := List.mem_flatten.mp hx
    exact hfailed ((hdone xs hxs).2 x hx)
  | failed done last hexecuted hlength hlast hdone =>
    obtain ⟨hlast, x, hx, hfailed⟩ := hlast
    rw [List.nil_append] at hexecuted
    have hmore : (done ++ [last]).length ≤ n := by
      rw [List.length_append]
      exact hlength
    refine ⟨⟨done ++ [last], ?_, hmore, ?_, ?_, fun _ => ⟨last, ?_, x, hx, hfailed⟩⟩, ?_⟩
    · rw [finish, hexecuted, List.flatten_append, List.flatten_singleton]
    · intro xs hxs
      obtain hxs | hxs := List.mem_append.mp hxs
      · exact words_executed (hdone xs hxs).1
      · rw [List.mem_singleton.mp hxs]
        exact words_executed hlast
    · intro xs hxs
      rw [List.dropLast_concat] at hxs
      exact (hdone xs hxs).2
    · rw [List.getLast?_concat]
      rfl
    · refine iff_of_true Nat.one_ne_zero ⟨x, ?_, hfailed⟩
      rw [finish, hexecuted]
      exact List.mem_append_right _ hx

def statusShell (status : Nat) : Shell Unit where
  glob _ word := [word]
  plain _ _ _ := rfl
  eval world _ := .returns status world
  sleep _ world := world

def quiet : World Unit := ⟨HandlerError.clean, ()⟩

def twoCommands : List Word := ["ls x".toList, "true".toList]

theorem twoCommands_ordinary : Ordinary (statusShell 0) twoCommands where
  nonempty := by decide
  plain := by simp [twoCommands]
  unescaped w hw := ansicstr_plain fun hmem => absurd ((fields_mem hw).2 '\\' hmem).1 (by decide)
  first := by decide
  single := by
    intro c hc w hw
    obtain rfl | hc := List.mem_cons.mp hc
    · have hlength : (words "ls x".toList).length = 2 := by decide
      rw [hw, List.length_singleton] at hlength
      exact absurd hlength (by decide)
    · rw [List.mem_singleton.mp hc] at hw
      obtain rfl := (List.cons.inj hw).1
      rfl
  returns _ _ world := ⟨0, world, rfl⟩

end HandlerCmd

end DeviceDriverTest
