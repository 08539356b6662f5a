import DeviceDriverTest.HandlerCmd
import DeviceDriverTest.InterruptTable
import DeviceDriverTest.TextReach

/-! What `echo` prints for the words of a line, and the fields that `cut` takes from it. -/

namespace DeviceDriverTest

namespace ShellCut

open FieldSplitting TextReach
open TestRunner (Word)
open HandlerCmd (echo isEchoOption)
open InterruptTable (substituted)

/-- `cut -d: -f$i` of a line, for a positive `i`: all of it where it has no such separator. -/
def cutField (i : Nat) (line : Word) : Word :=
  if ':' ∈ line then (line.splitOnP fun c => c == ':').getD (i - 1) [] else line

def cut (i : Nat) (text : Word) : Word := substituted ((text.splitOnP fun c => c == '\n').map (cutField i))

/-! What `echo` makes of the words. -/

theorem echo_words {words : List Word} (h : ∀ w ∈ words.head?, isEchoOption w = false) :
    echo false words = List.intercalate [' '] words := by
  cases words with
  | nil => rfl
  | cons word words => simp [echo, h word rfl]

theorem digit_stop {base : Nat} {p : Char → Bool} (hp : ∀ c, c ≠ ':' → p c = true) (most : Nat) (cs : Word) :
    ∀ c ∈ cs.take (HandlerCmd.digits base most cs).length, p c = true := by
  induction cs generalizing most with
  | nil => simp
  | cons c cs ih =>
    cases most with
    | zero => simp [HandlerCmd.digits]
    | succ most =>
      rw [HandlerCmd.digits]
      cases hdigit : HandlerCmd.digit base c with
      | none => simp
      | some value =>
        have hc : c ≠ ':' := by
          rintro rfl
          simp [HandlerCmd.digit] at hdigit
        simpa [hp c hc] using ih most

theorem length_numbered_le (base : Nat) (values : List Nat) : (HandlerCmd.numbered base values).length ≤ 1 := by
  have hone : ∀ n, (if n = 0 then [] else [Char.ofNat n]).length ≤ 1 := by
    intro n
    split
    · exact Nat.zero_le 1
    · exact Nat.le_refl 1
  exact hone _

/-- The escapes of a word take the stop no further away, and it is still there unless the output ends. -/
structure Nearer (p : Char → Bool) (word out : Word) (ended : Bool) : Prop where
  reach_le : reach p out ≤ reach p word
  stop : ended = false → (∃ c ∈ word, p c = false) → ∃ c ∈ out, p c = false

variable {p : Char → Bool} {word out : Word} {ended : Bool}

theorem Nearer.cons (h : Nearer p word out ended) (c : Char) : Nearer p (c :: word) (c :: out) ended := by
  constructor
  · exact reach_append_mono p [c] h.reach_le
  · intro hended hstop
    obtain ⟨d, hd, hp⟩ := hstop
    obtain rfl | hd := List.mem_cons.mp hd
    · exact ⟨d, List.mem_cons_self, hp⟩
    · obtain ⟨e, he, hp⟩ := h.stop hended ⟨d, hd, hp⟩
      exact ⟨e, List.mem_cons_of_mem c he, hp⟩

theorem Nearer.append (h : Nearer p word out ended) {left before : Word} (hleft : ∀ c ∈ left, p c = true)
    (hlength : before.length ≤ left.length) : Nearer p (left ++ word) (before ++ out) ended := by
  constructor
  · have hreach := reach_append_le p before out
    have hle := h.reach_le
    rw [reach_append_pass hleft]
    omega
  · intro hended hstop
    obtain ⟨d, hd, hp⟩ := hstop
    obtain hd | hd := List.mem_append.mp hd
    · exact absurd (hleft d hd) (ne_true_of_eq_false hp)
    · obtain ⟨e, he, hp⟩ := h.stop hended ⟨d, hd, hp⟩
      exact ⟨e, List.mem_append_right before he, hp⟩

theorem nearer_ansicstr (hp : ∀ c, c ≠ ':' → p c = true) (skip : Nat) (word : Word) :
    Nearer p (word.drop skip) (HandlerCmd.ansicstr skip word).1 (HandlerCmd.ansicstr skip word).2 := by
  have hescape : p '\\' = true := hp '\\' (by decide)
  induction skip, word using HandlerCmd.ansicstr.induct with
  | case1 skip =>
    rw [HandlerCmd.ansicstr, List.drop_nil]
    exact ⟨Nat.le_refl _, fun _ h => h⟩
  | case2 skip head cs ih =>
    rw [HandlerCmd.ansicstr]
    exact ih
  | case3 cs =>
    rw [HandlerCmd.ansicstr, if_pos rfl]
    exact ⟨Nat.zero_le _, fun h => absurd h (by decide)⟩
  | case4 c cs hc x hletter ih =>
    have hcolon : c ≠ ':' := by
      rintro rfl
      simp [HandlerCmd.letterEscape] at hletter
    rw [HandlerCmd.ansicstr, if_neg hc, hletter]
    refine @Nearer.append _ _ _ _ ih ['\\', c] [x] ?_ ?_
    · simp [hescape, hp c hcolon]
    · simp
  | case5 c cs hc hletter base most hnumber values hnone ih =>
    rw [HandlerCmd.ansicstr, if_neg hc, hletter]
    simp only [hnumber]
    rw [if_pos hnone]
    exact (ih.cons c).cons '\\'
  | case6 c cs hc hletter base most hnumber values hsome ih =>
    have hcolon : c ≠ ':' := by
      rintro rfl
      simp [HandlerCmd.numberEscape] at hnumber
    rw [HandlerCmd.ansicstr, if_neg hc, hletter]
    simp only [hnumber]
    rw [if_neg hsome]
    have hword : ('\\' :: c :: cs).drop 0 = '\\' :: c :: cs.take values.length ++ cs.drop values.length := by simp
    rw [hword]
    apply ih.append
    · simpa [hescape, hp c hcolon] using digit_stop hp most cs
    · have hlength := length_numbered_le base (HandlerCmd.digits base most cs)
      rw [List.length_cons, List.length_cons]
      omega
  | case7 c cs hc hletter hnumber ih =>
    rw [HandlerCmd.ansicstr, if_neg hc, hletter]
    simp only [hnumber]
    exact (ih.cons c).cons '\\'
  | case8 c cs hplain ih =>
    rw [HandlerCmd.ansicstr]
    · exact ih.cons c
    · exact hplain

theorem length_ansicstr_le (word : Word) : (HandlerCmd.ansicstr 0 word).1.length ≤ word.length := by
  have hreach := (nearer_ansicstr (p := fun _ => true) (fun _ _ => rfl) 0 word).reach_le
  rwa [reach_all, reach_all] at hreach

theorem reach_echoEscaped_le (hp : ∀ c, c ≠ ':' → p c = true) (words : List Word) :
    reach p (HandlerCmd.echoEscaped words) ≤ reach p (List.intercalate [' '] words) := by
  induction words with
  | nil => exact Nat.le_refl _
  | cons word words ih =>
    have hnearer := nearer_ansicstr hp 0 word
    have hstart : word <+: List.intercalate [' '] (word :: words) := by
      cases words with
      | nil => simp
      | cons next words =>
        rw [List.intercalate_cons_cons, List.append_assoc]
        exact List.prefix_append _ _
    rw [HandlerCmd.echoEscaped]
    cases hended : (HandlerCmd.ansicstr 0 word).2 with
    | true => exact hnearer.reach_le.trans (reach_start_le hstart)
    | false =>
      cases words with
      | nil => exact hnearer.reach_le.trans (reach_start_le hstart)
      | cons next words =>
        rw [List.intercalate_cons_cons, List.append_assoc, List.singleton_append]
        rw [if_neg Bool.false_ne_true, if_neg (List.cons_ne_nil _ _)]
        have hspace : p ' ' = true := hp ' ' (by decide)
        obtain hpass | hstop := pass_or_stop p word
        · have hlength := length_ansicstr_le word
          refine (reach_append_le p _ _).trans ?_
          rw [reach_append_pass hpass, reach_cons_pass hspace, reach_cons_pass hspace]
          omega
        · obtain ⟨c, hc, hpc⟩ := hnearer.stop hended hstop
          obtain ⟨d, hd, hpd⟩ := hstop
          rw [reach_append_stop hc hpc, reach_append_stop hd hpd]
          exact hnearer.reach_le

theorem reach_echo_le (hp : ∀ c, c ≠ ':' → p c = true) (words : List Word) :
    reach p (echo false words) ≤ reach p (List.intercalate [' '] (words.dropWhile isEchoOption)) := by
  unfold echo
  dsimp only
  split
  · apply reach_echoEscaped_le hp
  · exact Nat.le_refl _

theorem reach_join_cons (hp : ∀ c, c ≠ ':' → p c = true) {word : Word} (h : ':' ∉ word) (words : List Word) :
    word.length + reach p (List.intercalate [' '] words) ≤ reach p (List.intercalate [' '] (word :: words)) := by
  have hpass : ∀ c ∈ word, p c = true := by
    intro c hc
    apply hp
    rintro rfl
    exact h hc
  cases words with
  | nil =>
    rw [List.intercalate_singleton, ← List.append_nil word, reach_append_pass hpass, List.append_nil]
    exact Nat.le_refl _
  | cons next words =>
    have hspace : p ' ' = true := hp ' ' (by decide)
    rw [List.intercalate_cons_cons, List.append_assoc, reach_append_pass hpass, List.singleton_append,
      reach_cons_pass hspace]
    omega

theorem colon_notMem_option {word : Word} (h : isEchoOption word = true) : ':' ∉ word := by
  intro hmem
  have hchars := (HandlerCmd.isEchoOption_chars h).2 ':' hmem
  exact absurd hchars (by decide)

theorem reach_options_le (hp : ∀ c, c ≠ ':' → p c = true) (words : List Word) :
    reach p (List.intercalate [' '] (words.dropWhile isEchoOption)) ≤ reach p (List.intercalate [' '] words) := by
  induction words with
  | nil => exact Nat.le_refl _
  | cons word words ih =>
    cases hword : isEchoOption word with
    | true =>
      have hjoin := reach_join_cons hp (colon_notMem_option hword) words
      rw [List.dropWhile_cons_of_pos hword]
      omega
    | false => rw [List.dropWhile_cons_of_neg (ne_true_of_eq_false hword)]

theorem reach_echo_option_lt (hp : ∀ c, c ≠ ':' → p c = true) {word : Word} (h : isEchoOption word = true)
    (words : List Word) : reach p (echo false (word :: words)) < reach p (List.intercalate [' '] (word :: words)) := by
  have hecho := reach_echo_le hp (word :: words)
  have hoptions := reach_options_le hp words
  have hjoin := reach_join_cons hp (colon_notMem_option h) words
  have hlength := List.length_pos_of_ne_nil (HandlerCmd.isEchoOption_chars h).1
  rw [List.dropWhile_cons_of_pos h] at hecho
  omega

/-! What `cut` makes of the text. -/

theorem mem_cutField {i : Nat} {line : Word} {c : Char} (h : c ∈ cutField i line) : c ∈ line ∧ c ≠ ':' := by
  unfold cutField at h
  split at h
  next =>
    obtain hnone | ⟨part, hpart⟩ := Option.eq_none_or_eq_some ((line.splitOnP fun c => c == ':')[i - 1]?)
    · rw [List.getD_eq_getElem?_getD, hnone] at h
      cases h
    · rw [List.getD_eq_getElem?_getD, hpart] at h
      simpa using splitOnP_mem (List.mem_of_getElem? hpart) c h
  next hcolon =>
    refine ⟨h, ?_⟩
    rintro rfl
    exact hcolon h

theorem substituted_first {line : Word} {lines : List Word} (hline : '\n' ∉ line)
    (h : '\n' ∉ substituted (line :: lines)) : substituted (line :: lines) = line := by
  have hparts := List.rdropWhile_append_rtakeWhile (p := fun c => decide (c = '\n'))
    (l := (line :: lines).flatMap fun line => line ++ ['\n'])
  rw [List.flatMap_cons, List.append_assoc, List.singleton_append] at hparts
  obtain ⟨t, hout, hnewlines⟩ | ⟨t, hout, hrest⟩ := List.append_eq_append_iff.mp hparts
  · cases t with
    | nil => simpa [substituted] using hout.symm
    | cons c t =>
      have hc := List.mem_rtakeWhile_imp (hnewlines ▸ List.mem_append_left _ (List.mem_cons_self (a := c) (l := t)))
      rw [of_decide_eq_true hc] at hout
      exact absurd (by rw [hout]; simp) hline
  · cases t with
    | nil => simpa [substituted] using hout
    | cons c t =>
      obtain rfl := (List.cons.inj hrest).1
      exact absurd (by rw [substituted, List.flatMap_cons, List.append_assoc, List.singleton_append, hout]; simp) h

/-- A field without a line break is one of the first line. -/
theorem cut_first {i : Nat} {text : Word} (h : '\n' ∉ cut i text) : ∃ line, line <+: text ∧ cutField i line = cut i text := by
  obtain ⟨first, rest, hsplit, hstart⟩ := splitOnP_first (fun c => c == '\n') text
  refine ⟨first, hstart, ?_⟩
  rw [cut, hsplit, List.map_cons] at h ⊢
  refine (substituted_first ?_ h).symm
  intro hmem
  have hfirst := splitOnP_mem (hsplit ▸ List.mem_cons_self) '\n' (mem_cutField hmem).1
  exact absurd hfirst.2 (by decide)

theorem colon_notMem_cut {i : Nat} {text : Word} (h : '\n' ∉ cut i text) : ':' ∉ cut i text := by
  obtain ⟨line, -, hcut⟩ := cut_first h
  rw [← hcut]
  intro hmem
  exact (mem_cutField hmem).2 rfl

theorem cut_line {text : Word} (h : '\n' ∉ text) (i : Nat) : cut i text = cutField i text := by
  rw [cut, splitOnP_word h, List.map_singleton]
  cases hfield : cutField i text with
  | nil => rfl
  | cons c cs =>
    apply InterruptTable.substituted_singleton (List.cons_ne_nil c cs)
    rw [← hfield]
    intro hmem
    exact h (mem_cutField hmem).1

theorem splitOnP_colon {a : Word} (ha : ':' ∉ a) (b : Word) :
    ((a ++ ':' :: b).splitOnP fun c => c == ':') = a :: b.splitOnP fun c => c == ':' := by
  rw [List.splitOnP_append_cons (p := fun c => c == ':') a b (beq_self_eq_true ':'), splitOnP_word ha,
    List.singleton_append]

theorem cutField_one {a : Word} (ha : ':' ∉ a) (b : Word) : cutField 1 (a ++ ':' :: b) = a := by
  rw [cutField, if_pos (by simp), splitOnP_colon ha]
  rfl

theorem cutField_two {a b : Word} (ha : ':' ∉ a) (hb : ':' ∉ b) : cutField 2 (a ++ ':' :: b) = b := by
  rw [cutField, if_pos (by simp), splitOnP_colon ha, splitOnP_word hb]
  rfl

theorem cutField_start {text : Word} (h : ':' ∈ text) : cutField 1 text ++ ':' :: cutField 2 text <+: text := by
  obtain ⟨a, b, rfl, ha⟩ := List.eq_append_cons_of_mem h
  obtain ⟨first, rest, hsplit, hstart⟩ := splitOnP_first (fun c => c == ':') b
  have htwo : cutField 2 (a ++ ':' :: b) = first := by
    rw [cutField, if_pos h, splitOnP_colon ha, hsplit]
    rfl
  rw [cutField_one ha, htwo]
  exact List.prefix_append_right_inj a |>.mpr (List.cons_prefix_cons.mpr ⟨rfl, hstart⟩)

theorem cutField_one_start (text : Word) : cutField 1 text <+: text := by
  by_cases h : ':' ∈ text
  · exact (List.prefix_append _ _).trans (cutField_start h)
  · rw [cutField, if_neg h]

theorem length_cutField_le (text : Word) : (cutField 1 text).length ≤ reach (fun c => c != ':') text := by
  have hpass : ∀ c ∈ cutField 1 text, (c != ':') = true := by
    intro c hc
    simpa using (mem_cutField hc).2
  have hreach := reach_append_pass hpass []
  rw [List.append_nil, reach_nil, Nat.add_zero] at hreach
  rw [← hreach]
  exact reach_start_le (cutField_one_start text)

end ShellCut

end DeviceDriverTest
