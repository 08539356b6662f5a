import DeviceDriverTest.HandlerCmd
import DeviceDriverTest.TextReach

/-! The lines that the shell reads from a file, and what it takes away from them. -/

namespace DeviceDriverTest

namespace ShellRead

open FieldSplitting TextReach
open TestRunner (Word)
open TestRunnerOptions (isBlank)
open HandlerCmd (words respaced)

/-- The lines that `while read` goes through; a character is marked if a backslash stood before it.
A backslash at the end of a line joins it to the next, and a last line without an end is not taken. -/
def read : List (Char × Bool) → Word → List (List (Char × Bool))
  | _, [] => []
  | line, '\\' :: '\n' :: cs => read line cs
  | line, '\\' :: c :: cs => read (line ++ [(c, true)]) cs
  | line, c :: cs => if c = '\n' then line :: read [] cs else read (line ++ [(c, false)]) cs

/-- The value of the one variable that `read` sets. -/
def trim (line : List (Char × Bool)) : Word :=
  ((line.dropWhile fun c => !c.2 && isBlank c.1).rdropWhile fun c => !c.2 && isBlank c.1).map Prod.fst

/-! What is read of one line. -/

/-- The characters of a line as they are read, and whether its end is behind a backslash. -/
def scan : Word → List (Char × Bool) × Bool
  | [] => ([], false)
  | ['\\'] => ([], true)
  | '\\' :: c :: cs => ((c, true) :: (scan cs).1, (scan cs).2)
  | c :: cs => ((c, false) :: (scan cs).1, (scan cs).2)

theorem read_line {line : Word} (h : '\n' ∉ line) (before : List (Char × Bool)) (rest : Word) :
    read before (line ++ '\n' :: rest) =
      if (scan line).2 then read (before ++ (scan line).1) rest else (before ++ (scan line).1) :: read [] rest := by
  induction line using scan.induct generalizing before with
  | case1 => simp [read, scan]
  | case2 => simp [read, scan]
  | case3 c cs ih =>
    have hc : c ≠ '\n' := by
      rintro rfl
      simp at h
    have hcs : '\n' ∉ cs := fun hmem => h (by simp [hmem])
    rw [List.cons_append, List.cons_append, read]
    · rw [ih hcs, scan]
      simp
    · exact hc
  | case4 c cs hlast hescape ih =>
    have hc : c ≠ '\n' := by
      rintro rfl
      simp at h
    have hcs : '\n' ∉ cs := fun hmem => h (by simp [hmem])
    have hne : c ≠ '\\' := by
      rintro rfl
      cases cs with
      | nil => exact hlast rfl rfl
      | cons d ds => exact hescape d ds rfl rfl
    rw [List.cons_append, read.eq_def]
    simp [hc, hne, ih hcs, scan]

theorem length_read_le (before : List (Char × Bool)) (text : Word) :
    (read before text).length ≤ text.count '\n' := by
  induction before, text using read.induct with
  | case1 before => simp [read]
  | case2 before cs ih =>
    rw [read, List.count_cons_of_ne (by decide), List.count_cons_self]
    omega
  | case3 before c cs hc ih =>
    rw [read, List.count_cons_of_ne (by decide), List.count_cons]
    · omega
    · exact hc
  | case4 before cs hline hescape ih =>
    rw [read.eq_def]
    simpa using ih
  | case5 before c cs hline hescape hc ih =>
    rw [read.eq_def]
    simpa [hc] using ih

theorem scan_plain {line : Word} (h : '\\' ∉ line) : scan line = (line.map fun c => (c, false), false) := by
  induction line using scan.induct with
  | case1 => rfl
  | case2 => simp at h
  | case3 c cs ih => simp at h
  | case4 c cs hlast hescape ih =>
    rw [scan, ih fun hmem => h (List.mem_cons_of_mem c hmem)]
    · rfl
    · exact hlast
    · exact hescape

def taken (line : Word) : Word := (scan line).1.map Prod.fst

theorem taken_escaped (c : Char) (cs : Word) : taken ('\\' :: c :: cs) = c :: taken cs := by
  rw [taken, scan]
  rfl

theorem taken_cons {c : Char} {cs : Word} (hlast : c = '\\' → cs = [] → False)
    (hescape : ∀ d ds, c = '\\' → cs = d :: ds → False) : taken (c :: cs) = c :: taken cs := by
  rw [taken, scan]
  · rfl
  · exact hlast
  · exact hescape

theorem taken_sublist (line : Word) : (taken line).Sublist line := by
  induction line using scan.induct with
  | case1 => exact List.Sublist.refl []
  | case2 => exact List.nil_sublist _
  | case3 c cs ih =>
    rw [taken_escaped]
    exact (ih.cons_cons c).cons '\\'
  | case4 c cs hlast hescape ih =>
    rw [taken_cons hlast hescape]
    exact ih.cons_cons c

theorem unescaped_of_taken {line : Word} (h : taken line = line) : '\\' ∉ line := by
  induction line using scan.induct with
  | case1 => exact List.not_mem_nil
  | case2 => cases h
  | case3 c cs ih =>
    have hlength := (taken_sublist cs).length_le
    rw [taken_escaped] at h
    have hsame := congrArg List.length h
    simp only [List.length_cons] at hsame
    omega
  | case4 c cs hlast hescape ih =>
    rw [taken_cons hlast hescape] at h
    have hne : c ≠ '\\' := by
      rintro rfl
      cases cs with
      | nil => exact hlast rfl rfl
      | cons d ds => exact hescape d ds rfl rfl
    simp [hne.symm, ih (List.cons.inj h).2]

theorem mem_taken {line : Word} {c : Char} (h : c ∈ line) (hc : c ≠ '\\') : c ∈ taken line := by
  induction line using scan.induct with
  | case1 => exact h
  | case2 => exact absurd (List.mem_singleton.mp h) hc
  | case3 d cs ih =>
    rw [taken_escaped]
    have hmem : c ∈ d :: cs := (List.mem_cons.mp h).resolve_left hc
    obtain rfl | hmem := List.mem_cons.mp hmem
    · exact List.mem_cons_self
    · exact List.mem_cons_of_mem d (ih hmem)
  | case4 d cs hlast hescape ih =>
    rw [taken_cons hlast hescape]
    obtain rfl | hmem := List.mem_cons.mp h
    · exact List.mem_cons_self
    · exact List.mem_cons_of_mem d (ih hmem)

theorem reach_taken_le {p : Char → Bool} (hp : p '\\' = true) (line : Word) : reach p (taken line) ≤ reach p line := by
  induction line using scan.induct with
  | case1 => exact Nat.le_refl _
  | case2 => exact Nat.zero_le _
  | case3 c cs ih =>
    rw [taken_escaped, reach_cons_pass hp]
    cases hc : p c with
    | true =>
      rw [reach_cons_pass hc, reach_cons_pass hc]
      omega
    | false =>
      rw [reach_cons_stop hc]
      apply Nat.zero_le
  | case4 c cs hlast hescape ih =>
    rw [taken_cons hlast hescape]
    cases hc : p c with
    | true =>
      rw [reach_cons_pass hc, reach_cons_pass hc]
      omega
    | false =>
      rw [reach_cons_stop hc]
      apply Nat.zero_le

/-! Without the blanks at its ends, and with one blank between its words. -/

theorem trim_sublist (line : List (Char × Bool)) : (trim line).Sublist (line.map Prod.fst) :=
  ((List.rdropWhile_prefix _ _).sublist.trans (List.dropWhile_sublist _)).map Prod.fst

theorem reach_trim_le {p : Char → Bool} (hp : ∀ c, isBlank c = true → p c = true) (line : List (Char × Bool)) :
    reach p (trim line) ≤ reach p (line.map Prod.fst) := by
  rw [trim, reach_map, reach_map]
  refine (reach_rdropWhile_le _ _).trans (reach_dropWhile_le ?_ line)
  rintro ⟨c, escaped⟩ hc
  apply hp
  simp only [Bool.and_eq_true] at hc
  exact hc.2

theorem mem_trim {line : List (Char × Bool)} {c : Char} (h : c ∈ line.map Prod.fst) (hc : isBlank c = false) :
    c ∈ trim line := by
  obtain ⟨x, hx, rfl⟩ := List.mem_map.mp h
  apply List.mem_map_of_mem
  have hstays : ¬ (!x.2 && isBlank x.1) = true := by
    rw [hc, Bool.and_false]
    exact Bool.false_ne_true
  rw [← List.takeWhile_append_dropWhile (p := fun c => !c.2 && isBlank c.1) (l := line)] at hx
  obtain hx | hx := List.mem_append.mp hx
  · exact absurd (List.mem_takeWhile_imp hx) hstays
  · rw [← List.rdropWhile_append_rtakeWhile (p := fun c => !c.2 && isBlank c.1)
      (l := line.dropWhile fun c => !c.2 && isBlank c.1)] at hx
    obtain hx | hx := List.mem_append.mp hx
    · exact hx
    · exact absurd (List.mem_rtakeWhile_imp hx) hstays

theorem trim_unmarked (text : Word) :
    trim (text.map fun c => (c, false)) = (text.dropWhile isBlank).rdropWhile isBlank := by
  simp [trim, List.rdropWhile, List.dropWhile_map, ← List.map_reverse, Function.comp_def]

theorem length_respaced_le (text : Word) : (respaced text).length ≤ text.length := by
  have hreach := @reach_respaced_le _ (fun _ => true) isBlank ' ' rfl (fun _ _ => rfl) text
  rwa [reach_all, reach_all] at hreach

theorem trim_plain {text : Word} (h : respaced text = text) : trim (text.map fun c => (c, false)) = text := by
  have hsublist := trim_sublist (text.map fun c => (c, false))
  rw [List.map_map, Function.comp_def, List.map_id'] at hsublist
  apply hsublist.eq_of_length_le
  have hwords : respaced (trim (text.map fun c => (c, false))) = text := by
    rw [trim_unmarked, respaced, words, fields_rdropWhile, fields_dropWhile]
    exact h
  have hlength := length_respaced_le (trim (text.map fun c => (c, false)))
  rwa [hwords] at hlength

theorem mem_respaced {text : Word} {c : Char} (h : c ∈ text) (hc : isBlank c = false) : c ∈ respaced text := by
  obtain ⟨word, hword, hmem⟩ := fields_cover h hc
  exact mem_intercalate hword hmem

theorem newline_notMem_respaced (text : Word) : '\n' ∉ respaced text := by
  intro hmem
  obtain hspace | ⟨word, hword, hmem⟩ := intercalate_mem hmem
  · exact absurd hspace (by decide)
  · exact absurd ((fields_mem hword).2 '\n' hmem).2 (by decide)

theorem colon_mem_respaced {line : Word} (h : ':' ∈ line) : ':' ∈ respaced (trim (scan line).1) :=
  mem_respaced (mem_trim (mem_taken h (by decide)) (by decide)) (by decide)

theorem reach_respaced_line_le {p : Char → Bool} (hp : ∀ c, c ≠ ':' → p c = true) (line : Word) :
    reach p (respaced (trim (scan line).1)) ≤ reach p line := by
  have hblank : ∀ c, isBlank c = true → p c = true := by
    intro c hc
    apply hp
    rintro rfl
    exact absurd hc (by decide)
  have hspaced := reach_respaced_le (s := ' ') (hp ' ' (by decide)) hblank (trim (scan line).1)
  have htrim := reach_trim_le hblank (scan line).1
  have htaken := reach_taken_le (hp '\\' (by decide)) line
  exact hspaced.trans (htrim.trans htaken)

end ShellRead

end DeviceDriverTest
