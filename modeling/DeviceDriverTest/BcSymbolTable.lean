import Mathlib.Data.List.Basic
import Mathlib.Data.String.Basic
import Mathlib.Data.Tree.Basic
import Mathlib.Logic.Function.Basic

/-! The symbol table of `bc`: the tree of names, and the numbers that `lookup` gives to them.
The tree is meant to be balanced, but a subtree is reported to have grown only where a leaf is put in, so that
no rotation is ever made; and a number is written down before the room for it is there. -/

namespace DeviceDriverTest

namespace Bc

def MAX_STORE : Nat := 32767

def STORE_INCR : Nat := 32

inductive NameKind where
  | simple
  | array
  | funct
  | functdef
  deriving DecidableEq

/-- A name with its number as an array, a function and a variable, where zero is no number. -/
structure IdRec where
  id : String
  aName : Nat
  fName : Nat
  vName : Nat
  deriving DecidableEq

def IdRec.new (name : String) : IdRec := ⟨name, 0, 0, 0⟩

inductive IdTree where
  | null
  | node (rec : IdRec) (balance : Int) (left right : IdTree)

namespace IdTree

def findId : IdTree → String → Option IdRec
  | null, _ => none
  | node r _ left right, id =>
    if id = r.id then some r else if id < r.id then left.findId id else right.findId id

/-- The two rotations at a node whose left subtree is too high; `none` is a null pointer that is followed. -/
def rebalanceLeft (a : IdRec) : IdTree → IdTree → Option IdTree
  | null, _ => none
  | node b bBalance bLeft bRight, right =>
    if bBalance ≤ 0 then
      some (node b 0 bLeft (node a 0 bRight right))
    else
      match bRight with
      | null => none
      | node c cBalance cLeft cRight =>
        let aNew := if cBalance = -1 then 1 else if cBalance = 0 ∨ cBalance = 1 then 0 else -2
        let bNew := if cBalance = -1 ∨ cBalance = 0 then 0 else if cBalance = 1 then -1 else bBalance
        some (node c 0 (node b bNew bLeft cLeft) (node a aNew cRight right))

/-- The two rotations at a node whose right subtree is too high. -/
def rebalanceRight (a : IdRec) : IdTree → IdTree → Option IdTree
  | _, null => none
  | left, node b bBalance bLeft bRight =>
    if bBalance ≥ 0 then
      some (node b 0 (node a 0 left bLeft) bRight)
    else
      match bLeft with
      | null => none
      | node c cBalance cLeft cRight =>
        let aNew := if cBalance = -1 ∨ cBalance = 0 then 0 else if cBalance = 1 then -1 else 2
        let bNew := if cBalance = -1 then 1 else if cBalance = 0 ∨ cBalance = 1 then 0 else bBalance
        some (node c 0 (node a aNew left cLeft) (node b bNew cRight bRight))

/-- The tree with the new name, and whether it is said to have grown in height. -/
def insertIdRec : IdTree → IdRec → Option (IdTree × Bool)
  | null, newId => some (node newId 0 null null, true)
  | node r balance left right, newId =>
    if newId.id < r.id then
      (left.insertIdRec newId).bind fun (left, grown) =>
        if grown ∧ balance - 1 = -2 then
          (rebalanceLeft r left right).map fun root => (root, false)
        else
          some (node r (if grown then balance - 1 else balance) left right, false)
    else
      (right.insertIdRec newId).bind fun (right, grown) =>
        if grown ∧ balance + 1 = 2 then
          (rebalanceRight r left right).map fun root => (root, false)
        else
          some (node r (if grown then balance + 1 else balance) left right, false)

/-- What is written through the pointer that `find_id` returned. -/
def writeId : IdTree → IdRec → IdTree
  | null, _ => null
  | node r balance left right, newId =>
    if newId.id = r.id then node newId balance left right
    else if newId.id < r.id then node r balance (left.writeId newId) right
    else node r balance left (right.writeId newId)

/-- The names of the tree as they hang in it. -/
def shape : IdTree → BinaryTree String
  | null => .nil
  | node r _ left right => .node r.id left.shape right.shape

/-- Each balance counts the subtrees that are there, not how high they are. -/
def Unrotated : IdTree → Prop
  | null => True
  | node _ balance left right =>
    balance = (if right.shape = .nil then 0 else 1) - (if left.shape = .nil then 0 else 1) ∧
      left.Unrotated ∧ right.Unrotated

end IdTree

/-- A name goes to the leaf where the search for it ends, and the rest stays where it is. -/
def insertLeaf : BinaryTree String → String → BinaryTree String
  | .nil, name => .node name .nil .nil
  | .node id left right, name =>
    if name < id then .node id (insertLeaf left name) right else .node id left (insertLeaf right name)

theorem insertLeaf_ne_nil (t : BinaryTree String) (name : String) : insertLeaf t name ≠ .nil := by
  cases t with
  | nil => simp [insertLeaf]
  | node id left right => by_cases h : name < id <;> simp [insertLeaf, h]

namespace IdTree

/-- No rotation is made, and the balances stay what they count. -/
theorem insertIdRec_eq {t : IdTree} (newId : IdRec) (h : t.Unrotated) :
    ∃ t', t.insertIdRec newId = some (t', decide (t.shape = .nil)) ∧ t'.Unrotated ∧
      t'.shape = insertLeaf t.shape newId.id := by
  induction t with
  | null => exact ⟨node newId 0 null null, rfl, by simp [Unrotated], rfl⟩
  | node r balance left right ihl ihr =>
    obtain ⟨hb, hl, hr⟩ := h
    by_cases hlt : newId.id < r.id
    · obtain ⟨t', he, hu, hs⟩ := ihl hl
      have hne := insertLeaf_ne_nil left.shape newId.id
      refine ⟨node r (if left.shape = .nil then balance - 1 else balance) t' right, ?_, ⟨?_, hu, hr⟩, ?_⟩
      · simp only [insertIdRec, hlt, if_true, he, Option.bind_some, decide_eq_true_eq]
        rw [if_neg]
        · simp [shape]
        · rw [hb]
          grind
      · rw [hs, if_neg hne, hb]
        grind
      · simp [shape, insertLeaf, hlt, hs]
    · obtain ⟨t', he, hu, hs⟩ := ihr hr
      have hne := insertLeaf_ne_nil right.shape newId.id
      refine ⟨node r (if right.shape = .nil then balance + 1 else balance) left t', ?_, ⟨?_, hl, hu⟩, ?_⟩
      · simp only [insertIdRec, hlt, if_false, he, Option.bind_some, decide_eq_true_eq]
        rw [if_neg]
        · simp [shape]
        · rw [hb]
          grind
      · rw [hs, if_neg hne, hb]
        grind
      · simp [shape, insertLeaf, hlt, hs]

theorem findId_insertIdRec {t t' : IdTree} {newId : IdRec} {grown : Bool} (h : t.Unrotated)
    (hnone : t.findId newId.id = none) (he : t.insertIdRec newId = some (t', grown)) (name : String) :
    t'.findId name = if name = newId.id then some newId else t.findId name := by
  induction t generalizing t' grown with
  | null =>
    obtain ⟨rfl, -⟩ : node newId 0 null null = t' ∧ true = grown := by simpa [insertIdRec] using he
    simp [findId]
  | node r balance left right ihl ihr =>
    obtain ⟨hb, hl, hr⟩ := h
    have hne : newId.id ≠ r.id := by
      intro hid
      simp [findId, hid] at hnone
    by_cases hlt : newId.id < r.id
    · obtain ⟨left', hel, -, -⟩ := insertIdRec_eq newId hl
      rw [findId, if_neg hne, if_pos hlt] at hnone
      have ih := ihl hl hnone hel
      simp only [insertIdRec, hlt, if_true, hel, Option.bind_some, decide_eq_true_eq] at he
      rw [if_neg (by rw [hb]; grind), Option.some.injEq, Prod.mk.injEq] at he
      rw [← he.1, findId, findId, ih]
      grind
    · obtain ⟨right', her, -, -⟩ := insertIdRec_eq newId hr
      rw [findId, if_neg hne, if_neg hlt] at hnone
      have ih := ihr hr hnone her
      simp only [insertIdRec, hlt, if_false, her, Option.bind_some, decide_eq_true_eq] at he
      rw [if_neg (by rw [hb]; grind), Option.some.injEq, Prod.mk.injEq] at he
      rw [← he.1, findId, findId, ih]
      grind

theorem shape_writeId (t : IdTree) (newId : IdRec) : (t.writeId newId).shape = t.shape := by
  induction t with
  | null => rfl
  | node r balance left right ihl ihr =>
    rw [writeId]
    split_ifs with heq hlt
    · simp [shape, heq]
    · simp [shape, ihl]
    · simp [shape, ihr]

theorem unrotated_writeId {t : IdTree} (newId : IdRec) (h : t.Unrotated) : (t.writeId newId).Unrotated := by
  induction t with
  | null => exact h
  | node r balance left right ihl ihr =>
    obtain ⟨hb, hl, hr⟩ := h
    rw [writeId]
    split_ifs with heq hlt
    · exact ⟨hb, hl, hr⟩
    · exact ⟨by rw [shape_writeId]; exact hb, ihl hl, hr⟩
    · exact ⟨by rw [shape_writeId]; exact hb, hl, ihr hr⟩

theorem findId_writeId {t : IdTree} {newId : IdRec} (h : t.findId newId.id ≠ none) (name : String) :
    (t.writeId newId).findId name = if name = newId.id then some newId else t.findId name := by
  induction t with
  | null => exact absurd rfl h
  | node r balance left right ihl ihr =>
    rw [writeId]
    split_ifs with heq hlt hname hname hname
    all_goals simp only [findId] at h ⊢
    all_goals grind

def insertIds (t : IdTree) (names : List String) : Option IdTree :=
  names.foldlM (fun t name => (t.insertIdRec (IdRec.new name)).map Prod.fst) t

theorem insertIds_eq {t : IdTree} (names : List String) (h : t.Unrotated) :
    ∃ t', t.insertIds names = some t' ∧ t'.Unrotated ∧ t'.shape = names.foldl insertLeaf t.shape := by
  induction names generalizing t with
  | nil => exact ⟨t, rfl, h, rfl⟩
  | cons name names ih =>
    obtain ⟨t₁, he, hu, hs⟩ := insertIdRec_eq (IdRec.new name) h
    obtain ⟨t', hes, hus, hss⟩ := ih hu
    refine ⟨t', ?_, hus, ?_⟩
    · rw [← hes, insertIds, List.foldlM_cons, he]
      rfl
    · rw [hss, hs]
      rfl

theorem foldl_insertLeaf_right {id : String} {names : List String} (right : BinaryTree String)
    (h : ∀ name ∈ names, id < name) :
    names.foldl insertLeaf (.node id .nil right) = .node id .nil (names.foldl insertLeaf right) := by
  induction names generalizing right with
  | nil => rfl
  | cons name names ih =>
    have hle : ¬ name < id := not_lt_of_gt (h name List.mem_cons_self)
    rw [List.foldl_cons, insertLeaf, if_neg hle, ih _ fun other hother => h other (List.mem_cons_of_mem name hother)]
    rfl

/-- Whatever the names are, the tree is the one that plain insertion at the leaves builds. -/
theorem insertIds_shape (names : List String) :
    ∃ t, null.insertIds names = some t ∧ t.shape = names.foldl insertLeaf .nil := by
  obtain ⟨t, he, -, hs⟩ := insertIds_eq (t := null) names trivial
  exact ⟨t, he, hs⟩

theorem height_foldl_insertLeaf {names : List String} (h : names.Pairwise (· < ·)) :
    (names.foldl insertLeaf .nil).height = names.length := by
  induction names with
  | nil => rfl
  | cons name names ih =>
    obtain ⟨hlt, hrest⟩ := List.pairwise_cons.mp h
    rw [List.foldl_cons, insertLeaf, foldl_insertLeaf_right _ hlt, BinaryTree.height, ih hrest]
    simp [BinaryTree.height]

/-- Names that come in order make a tree that is as high as they are many. -/
theorem height_insertIds {names : List String} (h : names.Pairwise (· < ·)) :
    ∃ t, null.insertIds names = some t ∧ t.shape.height = names.length := by
  obtain ⟨t, he, -, hs⟩ := insertIds_eq (t := null) names trivial
  exact ⟨t, he, by rw [hs]; exact height_foldl_insertLeaf h⟩

theorem height_insertIds_three :
    ∃ t, null.insertIds ["a", "b", "c"] = some t ∧ t.shape.height = 3 :=
  height_insertIds (by decide)

end IdTree

/-- The tree, the next numbers, and the room for names, where `none` is what the allocation left there.
The texts that `warn` was called with stand in order. -/
structure SymbolTable where
  nameTree : IdTree
  nextArray : Nat
  nextFunc : Nat
  nextVar : Nat
  aCount : Nat
  fCount : Nat
  vCount : Nat
  aNames : Nat → Option String
  fNames : Nat → Option String
  vNames : Nat → Option String
  warned : List String

/-- A run of `lookup` ends with a message, or C leaves it undefined. -/
inductive LookupStop where
  | exit (message : String)
  | undefined
  deriving DecidableEq

namespace SymbolTable

def moreFunctions (t : SymbolTable) : SymbolTable :=
  { t with
    fCount := t.fCount + STORE_INCR
    fNames := fun index => if index < t.fCount then t.fNames index else none }

/-- Unlike those of the functions, the names are not copied. -/
def moreVariables (t : SymbolTable) : SymbolTable :=
  { t with vCount := t.vCount + STORE_INCR, vNames := fun _ => none }

/-- The new elements are cleared up to the number of the variables, not of the arrays. -/
def moreArrays (t : SymbolTable) : Option SymbolTable :=
  if t.vCount ≤ t.aCount + STORE_INCR then
    some { t with aCount := t.aCount + STORE_INCR, aNames := fun _ => none }
  else
    none

def initStorage (t : SymbolTable) : Option SymbolTable :=
  let t := moreFunctions { t with fCount := 0 }
  let t := { t with fNames := Function.update t.fNames 0 (some "(main)") }
  let t := moreVariables { t with vCount := 0 }
  moreArrays { t with aCount := 0 }

def initTree (t : SymbolTable) : SymbolTable :=
  { t with nameTree := .null, nextArray := 1, nextFunc := 1, nextVar := 5 }

/-- The record of a name, put into the tree where it is not there yet. -/
def enter (t : SymbolTable) (name : String) : Option (IdRec × SymbolTable) :=
  match t.nameTree.findId name with
  | some id => some (id, t)
  | none => (t.nameTree.insertIdRec (IdRec.new name)).map fun root =>
      (IdRec.new name, { t with nameTree := root.1 })

def lookupArray (t : SymbolTable) (name : String) (id : IdRec) : Except LookupStop (Int × SymbolTable) :=
  if id.aName ≠ 0 then
    .ok (-id.aName, t)
  else if t.nextArray < t.aCount then
    let id := { id with aName := t.nextArray }
    let t := { t with
      nameTree := t.nameTree.writeId id
      nextArray := t.nextArray + 1
      aNames := Function.update t.aNames id.aName (some name) }
    if id.aName < MAX_STORE then
      if id.aName ≥ t.aCount then
        t.moreArrays.elim (.error .undefined) fun t => .ok (-id.aName, t)
      else
        .ok (-id.aName, t)
    else
      .error (.exit "Too many array variables")
  else
    -- the name would be written behind the end of `a_names`
    .error .undefined

/-- A function of the mathematical library that is defined again gets a new number, for which no room is made. -/
def lookupFunct (t : SymbolTable) (name : String) (redefined : Bool) (id : IdRec) :
    Except LookupStop (Int × SymbolTable) :=
  if id.fName ≠ 0 then
    if redefined ∧ id.fName ≤ 6 then
      let id := { id with fName := t.nextFunc }
      .ok (id.fName, { t with nameTree := t.nameTree.writeId id, nextFunc := t.nextFunc + 1 })
    else
      .ok (id.fName, t)
  else if t.nextFunc < t.fCount then
    let id := { id with fName := t.nextFunc }
    let t := { t with
      nameTree := t.nameTree.writeId id
      nextFunc := t.nextFunc + 1
      fNames := Function.update t.fNames id.fName (some name) }
    if id.fName < MAX_STORE then
      .ok (id.fName, if id.fName ≥ t.fCount then t.moreFunctions else t)
    else
      .error (.exit "Too many functions")
  else
    .error .undefined

def lookupSimple (t : SymbolTable) (name : String) (id : IdRec) : Except LookupStop (Int × SymbolTable) :=
  if id.vName ≠ 0 then
    .ok (id.vName, t)
  else if t.nextVar - 1 < t.vCount then
    let id := { id with vName := t.nextVar }
    let t := { t with
      nameTree := t.nameTree.writeId id
      nextVar := t.nextVar + 1
      vNames := Function.update t.vNames (id.vName - 1) (some name) }
    if id.vName ≤ MAX_STORE then
      .ok (id.vName, if id.vName ≥ t.vCount then t.moreVariables else t)
    else
      .error (.exit "Too many variables")
  else
    .error .undefined

def warnName (t : SymbolTable) (name : String) : SymbolTable :=
  if name.utf8ByteSize ≠ 1 then { t with warned := t.warned ++ ["multiple letter name - " ++ name] } else t

def lookup (useMath : Bool) (t : SymbolTable) (name : String) (namekind : NameKind) :
    Except LookupStop (Int × SymbolTable) :=
  match (t.warnName name).enter name with
  | none => .error .undefined
  | some (id, t) =>
    match namekind with
    | .array => t.lookupArray name id
    | .funct => t.lookupFunct name false id
    | .functdef => t.lookupFunct name useMath id
    | .simple => t.lookupSimple name id

/-- The names of a program, one after the other. -/
def lookups (useMath : Bool) : SymbolTable → List (String × NameKind) → Except LookupStop (List Int × SymbolTable)
  | t, [] => .ok ([], t)
  | t, use :: uses => do
    let (number, t) ← t.lookup useMath use.1 use.2
    let (numbers, t) ← t.lookups useMath uses
    pure (number :: numbers, t)

def start : SymbolTable where
  nameTree := .null
  nextArray := 1
  nextFunc := 1
  nextVar := 5
  aCount := STORE_INCR
  fCount := STORE_INCR
  vCount := STORE_INCR
  aNames := fun _ => none
  fNames := Function.update (fun _ => none) 0 (some "(main)")
  vNames := fun _ => none
  warned := []

theorem start_eq (t : SymbolTable) (h : t.warned = []) : t.initStorage.map initTree = some start := by
  simp [initStorage, moreFunctions, moreVariables, moreArrays, initTree, start, h]

end SymbolTable

/-! What the table is for: each kind of name is numbered in the order of first mention. -/

def mention (names : List String) (name : String) : List String := if name ∈ names then names else names ++ [name]

/-- The place of a name among those that are mentioned, and zero where it is not. -/
def placeOf (first : Nat) (names : List String) (name : String) : Nat :=
  if name ∈ names then first + names.idxOf name else 0

/-- The names that a program mentions, of each kind in the order of first mention. -/
structure Mentioned where
  arrays : List String
  functs : List String
  simples : List String

namespace Mentioned

def nothing : Mentioned := ⟨[], [], []⟩

def note (m : Mentioned) (use : String × NameKind) : Mentioned :=
  match use.2 with
  | .array => { m with arrays := mention m.arrays use.1 }
  | .funct | .functdef => { m with functs := mention m.functs use.1 }
  | .simple => { m with simples := mention m.simples use.1 }

def number (m : Mentioned) (use : String × NameKind) : Int :=
  match use.2 with
  | .array => -(placeOf 1 m.arrays use.1 : Int)
  | .funct | .functdef => placeOf 1 m.functs use.1
  | .simple => placeOf 5 m.simples use.1

def names (m : Mentioned) (use : String × NameKind) : List String :=
  match use.2 with
  | .array => m.arrays
  | .funct | .functdef => m.functs
  | .simple => m.simples

/-- There is room for the names: arrays and functions have what there was at the start. -/
def Fits (m : Mentioned) : Prop :=
  m.arrays.length < STORE_INCR ∧ m.functs.length < STORE_INCR ∧ m.simples.length + 4 ≤ MAX_STORE

instance (m : Mentioned) : Decidable m.Fits := inferInstanceAs (Decidable (_ ∧ _ ∧ _))

/-- Names are only ever added behind those that are there. -/
structure Below (m n : Mentioned) : Prop where
  arrays : m.arrays <+: n.arrays
  functs : m.functs <+: n.functs
  simples : m.simples <+: n.simples

theorem Below.refl (m : Mentioned) : m.Below m := ⟨List.prefix_rfl, List.prefix_rfl, List.prefix_rfl⟩

theorem Below.trans {m n k : Mentioned} (h : m.Below n) (hk : n.Below k) : m.Below k :=
  ⟨h.arrays.trans hk.arrays, h.functs.trans hk.functs, h.simples.trans hk.simples⟩

theorem Below.fits {m n : Mentioned} (h : m.Below n) (hn : n.Fits) : m.Fits := by
  obtain ⟨ha, hf, hs⟩ := hn
  exact ⟨h.arrays.length_le.trans_lt ha, h.functs.length_le.trans_lt hf,
    (Nat.add_le_add_right h.simples.length_le 4).trans hs⟩

theorem mention_extends (names : List String) (name : String) : names <+: mention names name := by
  rw [mention]
  split_ifs
  · exact List.prefix_rfl
  · exact List.prefix_append names [name]

theorem mem_mention (names : List String) (name : String) : name ∈ mention names name := by
  by_cases h : name ∈ names <;> simp [mention, h]

theorem below_note (m : Mentioned) (use : String × NameKind) : m.Below (m.note use) := by
  obtain ⟨name, kind⟩ := use
  cases kind
  · exact ⟨List.prefix_rfl, List.prefix_rfl, mention_extends _ _⟩
  · exact ⟨mention_extends _ _, List.prefix_rfl, List.prefix_rfl⟩
  · exact ⟨List.prefix_rfl, mention_extends _ _, List.prefix_rfl⟩
  · exact ⟨List.prefix_rfl, mention_extends _ _, List.prefix_rfl⟩

theorem below_foldl (m : Mentioned) (uses : List (String × NameKind)) : m.Below (uses.foldl note m) := by
  induction uses generalizing m with
  | nil => exact Below.refl m
  | cons use uses ih => exact (below_note m use).trans (ih (m.note use))

theorem mem_names_note (m : Mentioned) (use : String × NameKind) : use.1 ∈ (m.note use).names use := by
  obtain ⟨name, kind⟩ := use
  cases kind <;> exact mem_mention _ _

theorem placeOf_mono {names more : List String} {name : String} (first : Nat) (h : names <+: more)
    (hmem : name ∈ names) : placeOf first names name = placeOf first more name := by
  rw [placeOf, if_pos hmem, placeOf, if_pos (h.subset hmem), h.idxOf_eq_of_mem hmem]

/-- The number of a name that has one never changes. -/
theorem Below.number {m n : Mentioned} {use : String × NameKind} (h : m.Below n) (hmem : use.1 ∈ m.names use) :
    m.number use = n.number use := by
  obtain ⟨name, kind⟩ := use
  cases kind
  · exact congrArg Int.ofNat (placeOf_mono 5 h.simples hmem)
  · exact congrArg (fun place : Nat => -(place : Int)) (placeOf_mono 1 h.arrays hmem)
  · exact congrArg Int.ofNat (placeOf_mono 1 h.functs hmem)
  · exact congrArg Int.ofNat (placeOf_mono 1 h.functs hmem)

end Mentioned

theorem placeOf_eq_zero {names : List String} {name : String} (first : Nat) (h : name ∉ names) :
    placeOf first names name = 0 := if_neg h

theorem length_mention {names : List String} {name : String} (h : name ∉ names) :
    (mention names name).length = names.length + 1 := by
  rw [mention, if_neg h, List.length_append, List.length_singleton]

theorem placeOf_mention {names : List String} {name : String} (first : Nat) (h : name ∉ names) (other : String) :
    placeOf first (mention names name) other =
      if other = name then first + names.length else placeOf first names other := by
  rw [mention, if_neg h]
  by_cases heq : other = name
  · simp [placeOf, heq, List.idxOf_append_of_notMem h]
  · by_cases hmem : other ∈ names
    · simp [placeOf, heq, hmem, List.idxOf_append_of_mem hmem]
    · simp [placeOf, heq, hmem]

namespace SymbolTable

open Mentioned

def record (t : SymbolTable) (name : String) : IdRec := (t.nameTree.findId name).getD (IdRec.new name)

/-- The table numbers the names in the order in which they were mentioned. -/
structure Numbers (t : SymbolTable) (m : Mentioned) : Prop where
  unrotated : t.nameTree.Unrotated
  record : ∀ name,
    t.record name = ⟨name, placeOf 1 m.arrays name, placeOf 1 m.functs name, placeOf 5 m.simples name⟩
  nextArray : t.nextArray = m.arrays.length + 1
  nextFunc : t.nextFunc = m.functs.length + 1
  nextVar : t.nextVar = m.simples.length + 5
  aCount : t.aCount = STORE_INCR
  fCount : t.fCount = STORE_INCR
  vCount : t.nextVar ≤ t.vCount

/-- The run goes on with the number, or stops where there is no room. -/
def Gives (outcome : Except LookupStop (Int × SymbolTable)) (m : Mentioned) (number : Int) : Prop :=
  if m.Fits then ∃ t, outcome = .ok (number, t) ∧ t.Numbers m else ∃ stop, outcome = .error stop

variable {t : SymbolTable} {m : Mentioned} {name : String}

theorem numbers_start : start.Numbers nothing where
  unrotated := trivial
  record := fun name => by simp [SymbolTable.record, start, IdTree.findId, IdRec.new, placeOf, nothing]
  nextArray := rfl
  nextFunc := rfl
  nextVar := rfl
  aCount := rfl
  fCount := rfl
  vCount := by decide

theorem Numbers.warnName (h : t.Numbers m) (name : String) : (t.warnName name).Numbers m := by
  rw [SymbolTable.warnName]
  split_ifs
  · exact ⟨h.unrotated, h.record, h.nextArray, h.nextFunc, h.nextVar, h.aCount, h.fCount, h.vCount⟩
  · exact h

theorem Numbers.enter (h : t.Numbers m) (name : String) :
    ∃ t', t.enter name = some (t'.record name, t') ∧ t'.Numbers m ∧ t'.nameTree.findId name ≠ none := by
  cases hfind : t.nameTree.findId name with
  | some id =>
    refine ⟨t, ?_, h, by simp [hfind]⟩
    simp [SymbolTable.enter, SymbolTable.record, hfind]
  | none =>
    obtain ⟨root, he, hu, -⟩ := IdTree.insertIdRec_eq (IdRec.new name) h.unrotated
    have hroot := IdTree.findId_insertIdRec h.unrotated hfind he
    have hnew : root.findId name = some (IdRec.new name) := by simp [hroot, IdRec.new]
    have hrecord : ∀ other, (root.findId other).getD (IdRec.new other) = t.record other := by
      intro other
      rw [hroot, SymbolTable.record]
      by_cases heq : other = name
      · simp [IdRec.new, heq, hfind]
      · simp [IdRec.new, heq]
    refine ⟨{ t with nameTree := root }, ?_, ⟨hu, fun other => (hrecord other).trans (h.record other), h.nextArray,
      h.nextFunc, h.nextVar, h.aCount, h.fCount, h.vCount⟩, ?_⟩
    · simp only [SymbolTable.enter, hfind, he, Option.map_some, SymbolTable.record, hnew, Option.getD_some]
    · simp [hnew]

theorem record_write {id : IdRec} (hk : t.nameTree.findId id.id ≠ none) (other : String) :
    ((t.nameTree.writeId id).findId other).getD (IdRec.new other) =
      if other = id.id then id else t.record other := by
  rw [IdTree.findId_writeId hk, record]
  split_ifs <;> rfl

theorem lookupArray_gives (h : t.Numbers m) (hm : m.Fits) (hk : t.nameTree.findId name ≠ none) :
    Gives (t.lookupArray name (t.record name)) (m.note (name, .array))
      ((m.note (name, .array)).number (name, .array)) := by
  by_cases hmem : name ∈ m.arrays
  · have hnote : m.note (name, .array) = m := by simp [note, mention, hmem]
    rw [hnote, Gives, if_pos hm]
    exact ⟨t, by simp [lookupArray, h.record, placeOf, hmem, number], h⟩
  have hplace := placeOf_mention 1 hmem
  have hlength := length_mention hmem
  have hzero := placeOf_eq_zero 1 hmem
  have hnum : (m.note (name, .array)).number (name, .array) = -(t.nextArray : Int) := by
    simp only [number, note, hplace, if_true, h.nextArray, Nat.add_comm 1]
  have hroom : t.nextArray < STORE_INCR ↔ (m.note (name, .array)).Fits := by
    rw [h.nextArray, ← hlength]
    exact ⟨fun hlt => ⟨hlt, hm.2⟩, fun hfits => hfits.1⟩
  rw [hnum, Gives]
  split_ifs with hfits
  · rw [← hroom] at hfits
    have hmax : t.nextArray < MAX_STORE := hfits.trans (by decide)
    refine ⟨{ t with
      nameTree := t.nameTree.writeId { t.record name with aName := t.nextArray }
      nextArray := t.nextArray + 1
      aNames := Function.update t.aNames t.nextArray (some name) }, ?_, IdTree.unrotated_writeId _ h.unrotated,
      fun other => ?_, ?_, h.nextFunc, h.nextVar, h.aCount, h.fCount, h.vCount⟩
    · simp [lookupArray, h.record, hzero, h.aCount, hfits, hmax]
    · have hid : (t.record name).id = name := by rw [h.record]
      rw [SymbolTable.record, record_write (by rwa [hid])]
      simp only [h.record, note, hplace]
      split_ifs with heq
      · rw [heq, h.nextArray, Nat.add_comm]
      · rfl
    · simp [note, hlength, h.nextArray]
  · rw [← hroom] at hfits
    exact ⟨.undefined, by simp [lookupArray, h.record, hzero, h.aCount, hfits]⟩

theorem lookupFunct_gives (h : t.Numbers m) (hm : m.Fits) (hk : t.nameTree.findId name ≠ none) :
    Gives (t.lookupFunct name false (t.record name)) (m.note (name, .funct))
      ((m.note (name, .funct)).number (name, .funct)) := by
  by_cases hmem : name ∈ m.functs
  · have hnote : m.note (name, .funct) = m := by simp [note, mention, hmem]
    rw [hnote, Gives, if_pos hm]
    exact ⟨t, by simp [lookupFunct, h.record, placeOf, hmem, number], h⟩
  have hplace := placeOf_mention 1 hmem
  have hlength := length_mention hmem
  have hzero := placeOf_eq_zero 1 hmem
  have hnum : (m.note (name, .funct)).number (name, .funct) = (t.nextFunc : Int) := by
    simp only [number, note, hplace, if_true, h.nextFunc, Nat.add_comm 1]
  have hroom : t.nextFunc < STORE_INCR ↔ (m.note (name, .funct)).Fits := by
    rw [h.nextFunc, ← hlength]
    exact ⟨fun hlt => ⟨hm.1, hlt, hm.2.2⟩, fun hfits => hfits.2.1⟩
  rw [hnum, Gives]
  split_ifs with hfits
  · rw [← hroom] at hfits
    have hmax : t.nextFunc < MAX_STORE := hfits.trans (by decide)
    refine ⟨{ t with
      nameTree := t.nameTree.writeId { t.record name with fName := t.nextFunc }
      nextFunc := t.nextFunc + 1
      fNames := Function.update t.fNames t.nextFunc (some name) }, ?_, IdTree.unrotated_writeId _ h.unrotated,
      fun other => ?_, h.nextArray, ?_, h.nextVar, h.aCount, h.fCount, h.vCount⟩
    · simp [lookupFunct, h.record, hzero, h.fCount, hfits, hmax]
    · have hid : (t.record name).id = name := by rw [h.record]
      rw [SymbolTable.record, record_write (by rwa [hid])]
      simp only [h.record, note, hplace]
      split_ifs with heq
      · rw [heq, h.nextFunc, Nat.add_comm]
      · rfl
    · simp [note, hlength, h.nextFunc]
  · rw [← hroom] at hfits
    exact ⟨.undefined, by simp [lookupFunct, h.record, hzero, h.fCount, hfits]⟩

/-- For a variable there always is room, since the place written is one less than its number. -/
theorem lookupSimple_gives (h : t.Numbers m) (hm : m.Fits) (hk : t.nameTree.findId name ≠ none) :
    Gives (t.lookupSimple name (t.record name)) (m.note (name, .simple))
      ((m.note (name, .simple)).number (name, .simple)) := by
  by_cases hmem : name ∈ m.simples
  · have hnote : m.note (name, .simple) = m := by simp [note, mention, hmem]
    rw [hnote, Gives, if_pos hm]
    exact ⟨t, by simp [lookupSimple, h.record, placeOf, hmem, number], h⟩
  have hplace := placeOf_mention 5 hmem
  have hlength := length_mention hmem
  have hzero := placeOf_eq_zero 5 hmem
  have hnum : (m.note (name, .simple)).number (name, .simple) = (t.nextVar : Int) := by
    simp only [number, note, hplace, if_true, h.nextVar, Nat.add_comm 5]
  have hroom : t.nextVar - 1 < t.vCount := by
    have hcount := h.vCount
    have hnext := h.nextVar
    omega
  have hmax : t.nextVar ≤ MAX_STORE ↔ (m.note (name, .simple)).Fits := by
    rw [h.nextVar, show m.simples.length + 5 = (mention m.simples name).length + 4 by rw [hlength]]
    exact ⟨fun hle => ⟨hm.1, hm.2.1, hle⟩, fun hfits => hfits.2.2⟩
  rw [hnum, Gives]
  split_ifs with hfits
  · rw [← hmax] at hfits
    let t₁ := { t with
      nameTree := t.nameTree.writeId { t.record name with vName := t.nextVar }
      nextVar := t.nextVar + 1
      vNames := Function.update t.vNames (t.nextVar - 1) (some name) }
    have hnumbers : ∀ count names, t.nextVar + 1 ≤ count →
        Numbers { t₁ with vCount := count, vNames := names } (m.note (name, .simple)) := by
      intro count names hcount
      refine ⟨IdTree.unrotated_writeId _ h.unrotated, fun other => ?_, h.nextArray, h.nextFunc, ?_, h.aCount,
        h.fCount, hcount⟩
      · have hid : (t.record name).id = name := by rw [h.record]
        rw [SymbolTable.record, record_write (by rwa [hid])]
        simp only [h.record, note, hplace]
        split_ifs with heq
        · rw [heq, h.nextVar, Nat.add_comm]
        · rfl
      · simp [note, hlength, h.nextVar, t₁]
    refine ⟨if t.nextVar ≥ t.vCount then t₁.moreVariables else t₁, ?_, ?_⟩
    · simp [lookupSimple, h.record, hzero, hroom, hfits, t₁]
    · split_ifs with hgrow
      · refine hnumbers (t.vCount + STORE_INCR) _ ?_
        have hcount := h.vCount
        rw [STORE_INCR]
        omega
      · exact hnumbers t.vCount _ (by omega)
  · rw [← hmax] at hfits
    exact ⟨.exit "Too many variables", by simp [lookupSimple, h.record, hzero, hroom, hfits]⟩

/-- One name: without the mathematical library, or unless a function is defined. -/
theorem lookup_gives {useMath : Bool} (h : t.Numbers m) (hm : m.Fits) {use : String × NameKind}
    (hdef : useMath = true → use.2 ≠ .functdef) :
    Gives (lookup useMath t use.1 use.2) (m.note use) ((m.note use).number use) := by
  obtain ⟨name, kind⟩ := use
  obtain ⟨t', he, ht, hk⟩ := (h.warnName name).enter name
  cases kind with
  | simple => simpa only [lookup, he] using lookupSimple_gives ht hm hk
  | array => simpa only [lookup, he] using lookupArray_gives ht hm hk
  | funct => simpa only [lookup, he] using lookupFunct_gives ht hm hk
  | functdef =>
    have hmath : useMath = false := by
      cases useMath
      · rfl
      · exact absurd rfl (hdef rfl)
    rw [hmath]
    simp only [lookup, he]
    exact lookupFunct_gives ht hm hk

theorem lookups_gives {useMath : Bool} (h : t.Numbers m) (hm : m.Fits) {uses : List (String × NameKind)}
    (hdef : ∀ use ∈ uses, useMath = true → use.2 ≠ .functdef) :
    if (uses.foldl note m).Fits then
      ∃ t', lookups useMath t uses = .ok (uses.map (uses.foldl note m).number, t') ∧
        t'.Numbers (uses.foldl note m)
    else
      ∃ stop, lookups useMath t uses = .error stop := by
  induction uses generalizing t m with
  | nil =>
    rw [List.foldl_nil, if_pos hm]
    exact ⟨t, rfl, h⟩
  | cons use uses ih =>
    have hone := lookup_gives h hm (hdef use List.mem_cons_self)
    have hbelow := below_foldl (m.note use) uses
    rw [Gives] at hone
    rw [List.foldl_cons]
    by_cases hfits : (m.note use).Fits
    · rw [if_pos hfits] at hone
      obtain ⟨t', he, ht⟩ := hone
      have hrest := ih ht hfits fun other hother => hdef other (List.mem_cons_of_mem use hother)
      split_ifs at hrest ⊢ with hall
      · obtain ⟨t'', hes, hts⟩ := hrest
        refine ⟨t'', ?_, hts⟩
        rw [lookups, he, hbelow.number (mem_names_note m use)]
        simp [hes, bind, Except.bind, pure, Except.pure]
      · obtain ⟨stop, hes⟩ := hrest
        exact ⟨stop, by simp [lookups, he, hes, bind, Except.bind]⟩
    · rw [if_neg hfits] at hone
      rw [if_neg fun hall => hfits (hbelow.fits hall)]
      obtain ⟨stop, he⟩ := hone
      exact ⟨stop, by simp [lookups, he, bind, Except.bind]⟩

end SymbolTable

end Bc

end DeviceDriverTest
