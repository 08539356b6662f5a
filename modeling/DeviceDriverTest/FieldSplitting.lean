import Mathlib.Data.List.DropRight

/-! The fields of a text: the parts between separators that are not empty. -/

namespace FieldSplitting

variable {α : Type*} {sep : α → Bool}

def fields (sep : α → Bool) (text : List α) : List (List α) := (text.splitOnP sep).filter fun part => !part.isEmpty

theorem splitOnP_cons_separator {p : α → Bool} {c : α} (hc : p c = true) (text : List α) :
    (c :: text).splitOnP p = [] :: text.splitOnP p := by
  rw [List.splitOnP_cons_eq_if_modifyHead, if_pos hc]

theorem splitOnP_cons_other {p : α → Bool} {c : α} (hc : p c = false) (text : List α) :
    (c :: text).splitOnP p = (text.splitOnP p).modifyHead (List.cons c) := by
  rw [List.splitOnP_cons_eq_if_modifyHead, if_neg (by rw [hc]; exact Bool.false_ne_true)]

theorem fields_nil : fields sep [] = [] := by simp [fields]

/-- A separator parts the fields on its two sides. -/
theorem fields_append {s : α} (hs : sep s = true) (left right : List α) :
    fields sep (left ++ s :: right) = fields sep left ++ fields sep right := by
  rw [fields, List.splitOnP_append_cons left right hs, List.filter_append]
  rfl

theorem fields_cons {s : α} (hs : sep s = true) (text : List α) : fields sep (s :: text) = fields sep text := by
  have happend := fields_append hs [] text
  rwa [fields_nil, List.nil_append, List.nil_append] at happend

theorem fields_word {word : List α} (hne : word ≠ []) (h : ∀ c ∈ word, sep c = false) : fields sep word = [word] := by
  have hsplit : word.splitOnP sep = [word] := List.splitOnP_eq_singleton fun c hc => by simp [h c hc]
  simp [fields, hsplit, hne]

theorem fields_eq_nil_iff (text : List α) : fields sep text = [] ↔ ∀ c ∈ text, sep c = true := by
  induction text with
  | nil => simp [fields_nil]
  | cons c text ih =>
    cases hc : sep c with
    | true =>
      rw [fields_cons hc, ih]
      simp [hc]
    | false =>
      have hfields : fields sep (c :: text) ≠ [] := by
        obtain ⟨part, parts, hparts⟩ := List.exists_cons_of_ne_nil (List.splitOnP_ne_nil sep text)
        rw [fields, splitOnP_cons_other hc, hparts]
        simp
      simp [hfields, hc]

theorem fields_intercalate {s : α} (hs : sep s = true) (words : List (List α)) :
    fields sep (List.intercalate [s] words) = words.flatMap (fields sep) := by
  induction words with
  | nil => exact fields_nil
  | cons word words ih =>
    cases words with
    | nil => simp
    | cons next words =>
      rw [List.intercalate_cons_cons, List.append_assoc, List.singleton_append, fields_append hs, ih]
      rfl

theorem intercalate_mem {s x : α} {parts : List (List α)} (hx : x ∈ List.intercalate [s] parts) :
    x = s ∨ ∃ part ∈ parts, x ∈ part := by
  induction parts with
  | nil => exact absurd hx List.not_mem_nil
  | cons part parts ih =>
    cases parts with
    | nil => exact Or.inr ⟨part, List.mem_cons_self, by simpa using hx⟩
    | cons next parts =>
      rw [List.intercalate_cons_cons, List.append_assoc] at hx
      obtain hx | hx := List.mem_append.mp hx
      · exact Or.inr ⟨part, List.mem_cons_self, hx⟩
      · obtain rfl | hx := List.mem_cons.mp hx
        · exact Or.inl rfl
        · exact (ih hx).imp_right fun ⟨other, hother, hx⟩ => ⟨other, List.mem_cons_of_mem part hother, hx⟩

theorem fields_intercalate_words {s : α} (hs : sep s = true) {words : List (List α)}
    (h : ∀ word ∈ words, word ≠ [] ∧ ∀ c ∈ word, sep c = false) : fields sep (List.intercalate [s] words) = words := by
  rw [fields_intercalate hs]
  induction words with
  | nil => rfl
  | cons word words ih =>
    obtain ⟨hne, hword⟩ := h word List.mem_cons_self
    rw [List.flatMap_cons, fields_word hne hword, ih fun w hw => h w (List.mem_cons_of_mem _ hw)]
    rfl

/-! Texts that are split at another character first. -/

theorem splitOnP_map {β : Type*} (p : β → Bool) (f : α → β) (text : List α) :
    (text.map f).splitOnP p = (text.splitOnP fun c => p (f c)).map (List.map f) := by
  induction text with
  | nil => rfl
  | cons c text ih =>
    obtain ⟨part, parts, hparts⟩ := List.exists_cons_of_ne_nil (List.splitOnP_ne_nil (fun c => p (f c)) text)
    cases hc : p (f c) with
    | true =>
      have hright := @splitOnP_cons_separator _ (fun c => p (f c)) c hc text
      rw [List.map_cons, splitOnP_cons_separator hc, ih, hright, List.map_cons, List.map_nil]
    | false =>
      have hright := @splitOnP_cons_other _ (fun c => p (f c)) c hc text
      rw [List.map_cons, splitOnP_cons_other hc, ih, hright, hparts]
      rfl

theorem splitOnP_congr {p q : α → Bool} {text : List α} (h : ∀ c ∈ text, p c = q c) :
    text.splitOnP p = text.splitOnP q := by
  induction text with
  | nil => rfl
  | cons c text ih =>
    rw [List.splitOnP_cons_eq_if_modifyHead, List.splitOnP_cons_eq_if_modifyHead, h c List.mem_cons_self,
      ih fun d hd => h d (List.mem_cons_of_mem c hd)]

theorem fields_map {β : Type*} (sep : β → Bool) (f : α → β) (text : List α) :
    fields sep (text.map f) = (fields (fun c => sep (f c)) text).map (List.map f) := by
  rw [fields, splitOnP_map, List.filter_map, fields]
  exact congrArg _ (List.filter_congr fun part _ => by cases part <;> rfl)

theorem fields_congr {sep sep' : α → Bool} {text : List α} (h : ∀ c ∈ text, sep c = sep' c) :
    fields sep text = fields sep' text := by
  rw [fields, splitOnP_congr h, fields]

theorem splitOnP_mem {p : α → Bool} {text part : List α} (hpart : part ∈ text.splitOnP p) :
    ∀ c ∈ part, c ∈ text ∧ p c = false := by
  induction text generalizing part with
  | nil =>
    rw [List.splitOnP_nil, List.mem_singleton] at hpart
    rw [hpart]
    exact fun c hc => absurd hc List.not_mem_nil
  | cons c text ih =>
    have hmore : ∀ part ∈ text.splitOnP p, ∀ d ∈ part, d ∈ c :: text ∧ p d = false :=
      fun part hpart d hd => (ih hpart d hd).imp_left (List.mem_cons_of_mem c)
    cases hc : p c with
    | true =>
      rw [splitOnP_cons_separator hc] at hpart
      obtain rfl | hpart := List.mem_cons.mp hpart
      · exact fun d hd => absurd hd List.not_mem_nil
      · exact hmore part hpart
    | false =>
      obtain ⟨first, parts, hparts⟩ := List.exists_cons_of_ne_nil (List.splitOnP_ne_nil p text)
      rw [splitOnP_cons_other hc, hparts, List.modifyHead_cons] at hpart
      obtain rfl | hpart := List.mem_cons.mp hpart
      · intro d hd
        obtain rfl | hd := List.mem_cons.mp hd
        · exact ⟨List.mem_cons_self, hc⟩
        · exact hmore first (by rw [hparts]; exact List.mem_cons_self) d hd
      · exact hmore part (by rw [hparts]; exact List.mem_cons_of_mem first hpart)

theorem fields_mem {text field : List α} (hfield : field ∈ fields sep text) :
    field ≠ [] ∧ ∀ c ∈ field, c ∈ text ∧ sep c = false := by
  obtain ⟨hpart, hne⟩ := List.mem_filter.mp hfield
  exact ⟨by simpa using hne, splitOnP_mem hpart⟩

theorem splitOnP_covers {p : α → Bool} {text : List α} {c : α} (h : c ∈ text) (hc : p c = false) :
    ∃ part ∈ text.splitOnP p, c ∈ part := by
  induction text with
  | nil => cases h
  | cons d text ih =>
    have hmore : c ∈ text → ∃ part ∈ text.splitOnP p, c ∈ part := ih
    cases hd : p d with
    | true =>
      have hne : c ≠ d := by
        rintro rfl
        exact Bool.false_ne_true (hc.symm.trans hd)
      obtain ⟨part, hpart, hmem⟩ := hmore ((List.mem_cons.mp h).resolve_left hne)
      rw [splitOnP_cons_separator hd]
      exact ⟨part, List.mem_cons_of_mem [] hpart, hmem⟩
    | false =>
      obtain ⟨first, parts, hparts⟩ := List.exists_cons_of_ne_nil (List.splitOnP_ne_nil p text)
      rw [hparts] at hmore
      rw [splitOnP_cons_other hd, hparts, List.modifyHead_cons]
      obtain rfl | htext := List.mem_cons.mp h
      · exact ⟨c :: first, List.mem_cons_self, List.mem_cons_self⟩
      · obtain ⟨part, hpart, hmem⟩ := hmore htext
        obtain rfl | hpart := List.mem_cons.mp hpart
        · exact ⟨d :: part, List.mem_cons_self, List.mem_cons_of_mem d hmem⟩
        · exact ⟨part, List.mem_cons_of_mem _ hpart, hmem⟩

theorem fields_cover {text : List α} {c : α} (h : c ∈ text) (hc : sep c = false) : ∃ field ∈ fields sep text, c ∈ field := by
  obtain ⟨part, hpart, hmem⟩ := splitOnP_covers h hc
  refine ⟨part, List.mem_filter.mpr ⟨hpart, ?_⟩, hmem⟩
  cases part with
  | nil => cases hmem
  | cons d part => rfl

theorem mem_intercalate {s x : α} {part : List α} {parts : List (List α)} (hpart : part ∈ parts) (hx : x ∈ part) :
    x ∈ List.intercalate [s] parts := by
  induction parts with
  | nil => cases hpart
  | cons first parts ih =>
    cases parts with
    | nil =>
      rw [List.mem_singleton.mp hpart] at hx
      simpa using hx
    | cons next parts =>
      rw [List.intercalate_cons_cons]
      obtain rfl | hpart := List.mem_cons.mp hpart
      · exact List.mem_append_left _ (List.mem_append_left _ hx)
      · exact List.mem_append_right _ (ih hpart)

theorem fields_dropWhile (text : List α) : fields sep (text.dropWhile sep) = fields sep text := by
  induction text with
  | nil => rfl
  | cons c text ih =>
    cases hc : sep c with
    | true => rw [List.dropWhile_cons_of_pos hc, ih, fields_cons hc]
    | false => rw [List.dropWhile_cons_of_neg (ne_true_of_eq_false hc)]

theorem fields_rdropWhile (text : List α) : fields sep (text.rdropWhile sep) = fields sep text := by
  induction text using List.reverseRecOn with
  | nil => rfl
  | append_singleton text c ih =>
    cases hc : sep c with
    | true => rw [List.rdropWhile_concat_pos _ _ _ hc, ih, fields_append hc, fields_nil, List.append_nil]
    | false => rw [List.rdropWhile_concat_neg _ _ _ (ne_true_of_eq_false hc)]

theorem splitOnP_first (p : α → Bool) (text : List α) :
    ∃ first rest, text.splitOnP p = first :: rest ∧ first <+: text := by
  induction text with
  | nil => exact ⟨[], [], rfl, List.prefix_rfl⟩
  | cons c text ih =>
    obtain ⟨first, rest, hsplit, hstart⟩ := ih
    cases hc : p c with
    | true => exact ⟨[], _, splitOnP_cons_separator hc text, List.nil_prefix⟩
    | false =>
      refine ⟨c :: first, rest, ?_, List.cons_prefix_cons.mpr ⟨rfl, hstart⟩⟩
      rw [splitOnP_cons_other hc, hsplit]
      rfl

theorem splitOnP_word {c : α} [BEq α] [LawfulBEq α] {text : List α} (h : c ∉ text) :
    (text.splitOnP fun d => d == c) = [text] := by
  apply List.splitOnP_eq_singleton
  intro d hd
  apply beq_eq_false_iff_ne.mpr
  rintro rfl
  exact h hd

/-- What is joined at a character that does not split is joined in a last and in a first part. -/
theorem splitOnP_append {p : α → Bool} (left : List α) : ∃ parts last, left.splitOnP p = parts ++ [last] ∧
    ∀ s, p s = false → ∀ right first rest, right.splitOnP p = first :: rest →
      (left ++ s :: right).splitOnP p = parts ++ (last ++ s :: first) :: rest := by
  induction left with
  | nil =>
    refine ⟨[], [], rfl, fun s hs right first rest hright => ?_⟩
    rw [List.nil_append, splitOnP_cons_other hs, hright]
    rfl
  | cons c left ih =>
    obtain ⟨parts, last, hleft, hjoin⟩ := ih
    cases hc : p c with
    | true =>
      refine ⟨[] :: parts, last, ?_, fun s hs right first rest hright => ?_⟩
      · rw [splitOnP_cons_separator hc, hleft, List.cons_append]
      · rw [List.cons_append, splitOnP_cons_separator hc, hjoin s hs right first rest hright, List.cons_append]
    | false =>
      cases parts with
      | nil =>
        refine ⟨[], c :: last, ?_, fun s hs right first rest hright => ?_⟩
        · rw [splitOnP_cons_other hc, hleft]
          rfl
        · rw [List.cons_append, splitOnP_cons_other hc, hjoin s hs right first rest hright]
          rfl
      | cons part parts =>
        refine ⟨(c :: part) :: parts, last, ?_, fun s hs right first rest hright => ?_⟩
        · rw [splitOnP_cons_other hc, hleft]
          rfl
        · rw [List.cons_append, splitOnP_cons_other hc, hjoin s hs right first rest hright]
          rfl

def fieldsOfParts (p sep : α → Bool) (text : List α) : List (List (List α)) := (text.splitOnP p).map (fields sep)

variable {p : α → Bool}

theorem fieldsOfParts_append {s s' : α} (hs : sep s = true) (hs' : sep s' = true) (hp : p s = false)
    (hp' : p s' = false) {right right' : List α} (h : fieldsOfParts p sep right = fieldsOfParts p sep right')
    (left : List α) :
    fieldsOfParts p sep (left ++ s :: right) = fieldsOfParts p sep (left ++ s' :: right') := by
  obtain ⟨parts, last, _, hjoin⟩ := splitOnP_append (p := p) left
  obtain ⟨first, rest, hright⟩ := List.exists_cons_of_ne_nil (List.splitOnP_ne_nil p right)
  obtain ⟨first', rest', hright'⟩ := List.exists_cons_of_ne_nil (List.splitOnP_ne_nil p right')
  rw [fieldsOfParts, fieldsOfParts, hright, hright', List.map_cons, List.map_cons] at h
  obtain ⟨hfirst, hrest⟩ := List.cons.inj h
  rw [fieldsOfParts, fieldsOfParts, hjoin s hp right first rest hright, hjoin s' hp' right' first' rest' hright',
    List.map_append, List.map_append, List.map_cons, List.map_cons, fields_append hs, fields_append hs', hfirst, hrest]

theorem fieldsOfParts_cons {s : α} (hs : sep s = true) (hp : p s = false) (text : List α) :
    fieldsOfParts p sep (s :: text) = fieldsOfParts p sep text := by
  obtain ⟨first, rest, htext⟩ := List.exists_cons_of_ne_nil (List.splitOnP_ne_nil p text)
  rw [fieldsOfParts, fieldsOfParts, splitOnP_cons_other hp, htext, List.modifyHead_cons, List.map_cons,
    List.map_cons, fields_cons hs]

theorem fieldsOfParts_concat {s : α} (hs : sep s = true) (hp : p s = false) (left : List α) :
    fieldsOfParts p sep (left ++ [s]) = fieldsOfParts p sep left := by
  obtain ⟨parts, last, hleft, hjoin⟩ := splitOnP_append (p := p) left
  rw [fieldsOfParts, fieldsOfParts, hjoin s hp [] [] [] rfl, hleft, List.map_append, List.map_append,
    List.map_singleton, List.map_singleton, fields_append hs, fields_nil, List.append_nil]

theorem fieldsOfParts_separators {text : List α} (h : ∀ c ∈ text, sep c = true ∧ p c = false) :
    fieldsOfParts p sep text = [[]] := by
  rw [fieldsOfParts, List.splitOnP_eq_singleton fun c hc => (h c hc).2, List.map_singleton,
    (fields_eq_nil_iff text).mpr fun c hc => (h c hc).1]

theorem no_separator_or_first (sep : α → Bool) (text : List α) : (∀ c ∈ text, sep c = false) ∨
    ∃ left s right, text = left ++ s :: right ∧ (∀ c ∈ left, sep c = false) ∧ sep s = true := by
  induction text with
  | nil => exact Or.inl fun c hc => absurd hc List.not_mem_nil
  | cons c text ih =>
    cases hc : sep c with
    | true => exact Or.inr ⟨[], c, text, rfl, fun d hd => absurd hd List.not_mem_nil, hc⟩
    | false =>
      obtain htext | ⟨left, s, right, rfl, hleft, hs⟩ := ih
      · exact Or.inl (List.forall_mem_cons.mpr ⟨hc, htext⟩)
      · exact Or.inr ⟨c :: left, s, right, rfl, List.forall_mem_cons.mpr ⟨hc, hleft⟩, hs⟩

/-- A text is a word without separators, or goes on behind the first of them. -/
theorem separated_induction {motive : List α → Prop} (sep : α → Bool) (text : List α)
    (hword : ∀ word, (∀ c ∈ word, sep c = false) → motive word)
    (hsplit : ∀ left b right, (∀ c ∈ left, sep c = false) → sep b = true → motive right →
      motive (left ++ b :: right)) : motive text := by
  induction hlength : text.length using Nat.strongRecOn generalizing text with
  | ind n ih =>
    obtain h | ⟨left, b, right, rfl, hleft, hb⟩ := no_separator_or_first sep text
    · exact hword text h
    · apply hsplit left b right hleft hb
      exact ih right.length (by rw [← hlength, List.length_append, List.length_cons]; omega) right rfl

/-- It makes no difference to the fields of the parts how the fields of the text are spaced. -/
theorem fieldsOfParts_respaced {s : α} (hs : sep s = true) (hp : ∀ c, sep c = true → p c = false) (text : List α) :
    fieldsOfParts p sep (List.intercalate [s] (fields sep text)) = fieldsOfParts p sep text := by
  induction text using separated_induction sep with
  | hword word h =>
    by_cases hnil : word = []
    · rw [hnil, fields_nil, List.intercalate_nil]
    · rw [fields_word hnil h, List.intercalate_singleton]
  | hsplit left b right hleft hb hright =>
    rw [fields_append hb]
    by_cases hnil : left = []
    · rw [hnil, fields_nil, List.nil_append, List.nil_append, hright, fieldsOfParts_cons hb (hp b hb)]
    · rw [fields_word hnil hleft, List.singleton_append]
      cases hfields : fields sep right with
      | nil =>
        have hblank := (fields_eq_nil_iff right).mp hfields
        have hnone : fieldsOfParts p sep right = fieldsOfParts p sep [] :=
          fieldsOfParts_separators fun c hc => ⟨hblank c hc, hp c (hblank c hc)⟩
        rw [List.intercalate_singleton, fieldsOfParts_append hb hb (hp b hb) (hp b hb) hnone,
          fieldsOfParts_concat hb (hp b hb)]
      | cons field rest =>
        rw [List.intercalate_cons_cons, List.append_assoc, List.singleton_append, ← hfields]
        exact fieldsOfParts_append hs hb (hp s hs) (hp b hb) hright left

end FieldSplitting
