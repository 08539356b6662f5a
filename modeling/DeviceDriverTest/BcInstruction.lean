import DeviceDriverTest.BcExecute

/-! The steps of the machine where the loaded code has an instruction: the bytes are read back as what they were
written for. -/

namespace DeviceDriverTest

namespace Bc

open BcNumber Realization

variable {env : Env} {functions : Nat → Function} {g a b n name : Nat} {stack : List BcStruct} {frames : List Frame}
  {s : Storage} {num : BcStruct}

theorem step_at {inst : Char} {code : List Nat} {m : Machine} (h : (functions g).body.drop a = inst.toNat :: code)
    (hm : (⟨g, a + 1, stack, frames, s, none⟩ : Machine).instruction env functions inst code = m) :
    Step env functions ⟨g, a, stack, frames, s, none⟩ m := by
  refine ⟨⟨rfl, ?_⟩, ?_⟩
  · by_contra hlen
    rw [List.drop_eq_nil_iff.mpr (not_lt.mp hlen)] at h
    exact absurd h nofun
  · rw [← hm]
    simp only [Machine.step, h, Char.ofNat_toNat]

theorem readName_nameBytes {rest : List Nat} (h : name < 32768) : readName (nameBytes name ++ rest) = some (name, rest) := by
  have hbit : ∀ x < 128, x &&& 0x80 = 0 := by decide
  have hhigh : ∀ x < 128, (x ||| 128) &&& 0x80 ≠ 0 ∧ (x ||| 128) &&& 0x7f = x := by decide
  unfold nameBytes
  split
  case isTrue hsmall => simp [readName, hbit name hsmall]
  case isFalse =>
    have hdiv : name / 256 % 256 < 128 := by omega
    obtain ⟨hset, hrest⟩ := hhigh _ hdiv
    simp only [readName, List.cons_append, List.nil_append, if_neg hset, hrest]
    simp only [Option.some.injEq, Prod.mk.injEq, and_true]
    omega

theorem readTo_append (m : Machine) (bytes rest : List Nat) :
    m.readTo (bytes ++ rest) rest = { m with addr := m.addr + bytes.length } := by
  simp [Machine.readTo]

/-! The instructions that are more than an action on the stack. -/

section Instructions

variable (m : Machine) (code : List Nat)

theorem instruction_jump : m.instruction env functions 'J' code = m.branch (functions m.func) code true := rfl

theorem instruction_branch :
    m.instruction env functions 'B' code = m.branchOn (functions m.func) code fun num => !bcIsZero num := rfl

theorem instruction_branchZero : m.instruction env functions 'Z' code = m.branchOn (functions m.func) code bcIsZero := rfl

theorem instruction_constant : m.instruction env functions 'K' code = m.constant code := rfl

theorem instruction_special : m.instruction env functions 'c' code = m.special env code := rfl

theorem instruction_call : m.instruction env functions 'C' code = m.callCode env functions code := rfl

theorem instruction_return : m.instruction env functions 'R' code = m.returnFrom functions := rfl

end Instructions

theorem step_op {o : Op} (h : InstrAt (functions g) a (.op o)) (ho : o ≠ .return) :
    Step env functions ⟨g, a, stack, frames, s, none⟩
      ((⟨g, a + 1, stack, frames, s, none⟩ : Machine).act (operate env o)) := by
  obtain ⟨⟨tail, htail⟩, -⟩ := h
  refine step_at htail ?_
  cases o with
  | arith op => cases op <;> rfl
  | rel op => cases op <;> rfl
  | «return» => exact absurd rfl ho
  | _ => rfl

theorem step_var {o : VarOp} (h : InstrAt (functions g) a (.var o name)) (hname : name < 32768) :
    Step env functions ⟨g, a, stack, frames, s, none⟩
      ((⟨g, a + (1 + (nameBytes name).length), stack, frames, s, none⟩ : Machine).act (access env name o)) := by
  obtain ⟨⟨tail, htail⟩, -⟩ := h
  have hnamed : ∀ action, (⟨g, a + 1, stack, frames, s, none⟩ : Machine).named (nameBytes name ++ tail) action =
      (⟨g, a + (1 + (nameBytes name).length), stack, frames, s, none⟩ : Machine).act (action name) := fun action => by
    rw [Machine.named, readName_nameBytes hname]
    simp only [readTo_append, Nat.add_assoc]
  refine step_at htail ?_
  cases o <;> exact hnamed _

theorem step_jump (h : InstrAt (functions g) a (.jump .jump n)) (hl : (functions g).labels n = some b) :
    Step env functions ⟨g, a, stack, frames, s, none⟩ ⟨g, b, stack, frames, s, none⟩ := by
  obtain ⟨⟨tail, htail⟩, -⟩ := h
  refine step_at htail ?_
  refine (instruction_jump _ _).trans ?_
  simp [Machine.branch, Nat.mod_add_div', hl]

def Jump.taken : Jump → BcStruct → Bool
  | .jump, _ => true
  | .branch, num => !bcIsZero num
  | .branchZero, num => bcIsZero num

theorem step_branch {o : Jump} (h : InstrAt (functions g) a (.jump o n)) (ho : o ≠ .jump)
    (hl : (functions g).labels n = some b) :
    Step env functions ⟨g, a, num :: stack, frames, s, none⟩
      ⟨g, if o.taken num then b else a + 3, stack, frames, s, none⟩ := by
  obtain ⟨⟨tail, htail⟩, -⟩ := h
  refine step_at htail ?_
  cases o with
  | jump => exact absurd rfl ho
  | branch =>
    refine (instruction_branch _ _).trans ?_
    by_cases hzero : bcIsZero num = true <;>
      simp [Machine.branchOn, Machine.branch, Nat.mod_add_div', hl, Jump.taken, hzero]
  | branchZero =>
    refine (instruction_branchZero _ _).trans ?_
    by_cases hzero : bcIsZero num = true <;>
      simp [Machine.branchOn, Machine.branch, Nat.mod_add_div', hl, Jump.taken, hzero]

theorem readConst_behind {base : Nat} {whole fraction rest : List Nat} (hw : ∀ d ∈ whole, d < 16) (hf : ∀ d ∈ fraction, d < 16)
    (hne : whole ≠ [] ∨ fraction ≠ []) : readConst base (token whole fraction ++ COLON :: rest) =
      (readConst base (token whole fraction ++ [COLON])).map fun read => (read.1, rest) := by
  unfold readConst
  split
  · exact pushB10Const_behind hw hf
  · exact pushConstant_behind hw hf hne

/-- The base that the constants of a function are read in, and those of the main program. -/
def baseIn (g : Nat) (frames : List Frame) (s : Storage) : Option Nat :=
  if g = 0 then some s.iBase else frames.head?.map Frame.iBase

theorem step_const {base : Nat} {whole fraction : List Nat} (h : InstrAt (functions g) a (.const whole fraction))
    (hi : (Instr.const whole fraction).Ok) (hbase : baseIn g frames s = some base)
    (hnum : (readConst base (token whole fraction ++ [COLON])).map Prod.fst = some num) :
    Step env functions ⟨g, a, stack, frames, s, none⟩
      ⟨g, a + (Instr.const whole fraction).bytes.length, num :: stack, frames, s, none⟩ := by
  obtain ⟨⟨tail, htail⟩, -⟩ := h
  obtain ⟨⟨read, rest⟩, hread, rfl⟩ := Option.map_eq_some_iff.mp hnum
  have hcode := @readConst_behind base whole fraction tail hi.1 hi.2.1 hi.2.2
  rw [hread, Option.map_some] at hcode
  have hbytes : (functions g).body.drop a = 'K'.toNat :: (token whole fraction ++ COLON :: tail) := by
    rw [htail]
    simp [Instr.bytes]
  refine step_at hbytes ?_
  have hto := readTo_append ⟨g, a + 1, stack, frames, s, none⟩ (token whole fraction ++ [COLON]) tail
  rw [List.append_assoc, List.singleton_append] at hto
  refine (instruction_constant _ _).trans ?_
  simp only [Machine.constant]
  unfold baseIn at hbase
  simp only [hbase, hcode, hto, Machine.act, done, Instr.bytes, Nat.add_assoc, List.length_append, List.length_cons,
    List.length_nil]
  congr 1
  omega

theorem step_const_undefined {base : Nat} {whole fraction : List Nat} (h : InstrAt (functions g) a (.const whole fraction))
    (hi : (Instr.const whole fraction).Ok) (hbase : baseIn g frames s = some base)
    (hnum : (readConst base (token whole fraction ++ [COLON])).map Prod.fst = none) :
    Step env functions ⟨g, a, stack, frames, s, none⟩ ⟨g, a + 1, stack, frames, s, some .undefined⟩ := by
  obtain ⟨⟨tail, htail⟩, -⟩ := h
  have hcode := @readConst_behind base whole fraction tail hi.1 hi.2.1 hi.2.2
  rw [Option.map_eq_none_iff.mp hnum, Option.map_none] at hcode
  have hbytes : (functions g).body.drop a = 'K'.toNat :: (token whole fraction ++ COLON :: tail) := by
    rw [htail]
    simp [Instr.bytes]
  refine step_at hbytes ?_
  refine (instruction_constant _ _).trans ?_
  simp only [Machine.constant]
  unfold baseIn at hbase
  simp only [hbase, hcode, Machine.stop]

theorem step_special {function : Special} (h : InstrAt (functions g) a (.special function)) :
    Step env functions ⟨g, a, stack, frames, s, none⟩
      ((⟨g, a + 2, stack, frames, s, none⟩ : Machine).onTop (function.apply env)) := by
  obtain ⟨⟨tail, htail⟩, -⟩ := h
  have hto := readTo_append ⟨g, a + 1, stack, frames, s, none⟩ [function.char.toNat] tail
  simp only [List.singleton_append] at hto
  refine step_at (show _ = 'c'.toNat :: function.char.toNat :: tail from htail) ?_
  refine (instruction_special _ _).trans ?_
  simp only [Machine.special, Char.ofNat_toNat, hto]
  cases function <;> rfl

theorem step_read (h : InstrAt (functions g) a .read) :
    Step env functions ⟨g, a, stack, frames, s, none⟩
      ((⟨g, a + 2, stack, frames, s, none⟩ : Machine).act fun stack => pushed stack readInput) := by
  obtain ⟨⟨tail, htail⟩, -⟩ := h
  have hto := readTo_append ⟨g, a + 1, stack, frames, s, none⟩ ['I'.toNat] tail
  simp only [List.singleton_append] at hto
  refine step_at (show _ = 'c'.toNat :: 'I'.toNat :: tail from htail) ?_
  refine (instruction_special _ _).trans ?_
  simp only [Machine.special, Char.ofNat_toNat, hto]
  rfl

theorem step_string {print : Bool} {text : List Char} (h : InstrAt (functions g) a (.string print text)) (htext : '"' ∉ text) :
    Step env functions ⟨g, a, stack, frames, s, none⟩
      ((⟨g, a + (Instr.string print text).bytes.length, stack, frames, s, none⟩ : Machine).act fun stack =>
        andThen (writeString env (if print then processed text else text)) fun _ => done stack) := by
  obtain ⟨⟨tail, htail⟩, -⟩ := h
  have hquote : ∀ c ∈ text.map Char.toNat, decide (c ≠ '"'.toNat) = true := by
    intro c hc
    obtain ⟨d, hd, rfl⟩ := List.mem_map.mp hc
    refine decide_eq_true fun heq => htext ?_
    rw [← Char.ofNat_toNat d, heq] at hd
    exact hd
  have htake : (text.map Char.toNat ++ '"'.toNat :: tail).takeWhile (· ≠ '"'.toNat) = text.map Char.toNat := by
    rw [List.takeWhile_append_of_pos hquote, List.takeWhile_cons_of_neg (by simp), List.append_nil]
  have hdrop : (text.map Char.toNat ++ '"'.toNat :: tail).dropWhile (· ≠ '"'.toNat) = '"'.toNat :: tail := by
    rw [List.dropWhile_append_of_pos hquote, List.dropWhile_cons_of_neg (by simp)]
  have hchars : (text.map Char.toNat).map Char.ofNat = text := by
    rw [List.map_map]
    exact (List.map_congr_left fun c _ => Char.ofNat_toNat c).trans (List.map_id' text)
  have hto := readTo_append ⟨g, a + 1, stack, frames, s, none⟩ (text.map Char.toNat ++ ['"'.toNat]) tail
  rw [List.append_assoc, List.singleton_append] at hto
  have hlen : a + 1 + (text.map Char.toNat ++ ['"'.toNat]).length = a + (Instr.string print text).bytes.length := by
    simp [Instr.bytes]
    omega
  have hwrite : ∀ action, (⟨g, a + 1, stack, frames, s, none⟩ : Machine).write (text.map Char.toNat ++ '"'.toNat :: tail) action =
      (⟨g, a + (Instr.string print text).bytes.length, stack, frames, s, none⟩ : Machine).act fun stack =>
        andThen (action text) fun _ => done stack := fun action => by
    simp only [Machine.write, htake, hdrop, hchars, hto, hlen]
  have hbytes : (functions g).body.drop a = (if print then 'O' else 'w').toNat :: (text.map Char.toNat ++ '"'.toNat :: tail) := by
    rw [htail]
    simp [Instr.bytes]
  refine step_at hbytes ?_
  cases print with
  | true => exact hwrite fun text => writeString env (processed text)
  | false => exact hwrite (writeString env)

theorem step_call {function : Nat} {types : List Char} (h : InstrAt (functions g) a (.call function types))
    (hi : (Instr.call function types).Ok) :
    Step env functions ⟨g, a, stack, frames, s, none⟩
      ((⟨g, a + (Instr.call function types).bytes.length, stack, frames, s, none⟩ : Machine).call env functions function types) := by
  obtain ⟨⟨tail, htail⟩, -⟩ := h
  have hcolon : ∀ c ∈ types.map Char.toNat, decide (c ≠ COLON) = true := by
    intro c hc
    obtain ⟨d, hd, rfl⟩ := List.mem_map.mp hc
    obtain rfl | rfl := hi.2 d hd <;> decide
  have htake : (types.map Char.toNat ++ COLON :: tail).takeWhile (· ≠ COLON) = types.map Char.toNat := by
    rw [List.takeWhile_append_of_pos hcolon, List.takeWhile_cons_of_neg (by simp), List.append_nil]
  have hdrop : (types.map Char.toNat ++ COLON :: tail).dropWhile (· ≠ COLON) = COLON :: tail := by
    rw [List.dropWhile_append_of_pos hcolon, List.dropWhile_cons_of_neg (by simp)]
  have hchars : (types.map Char.toNat).map Char.ofNat = types := by
    rw [List.map_map]
    exact (List.map_congr_left fun c _ => Char.ofNat_toNat c).trans (List.map_id' types)
  have hto := readTo_append ⟨g, a + 1, stack, frames, s, none⟩ (nameBytes function ++ types.map Char.toNat ++ [COLON]) tail
  rw [List.append_assoc, List.append_assoc, List.singleton_append] at hto
  have hlen : a + 1 + (nameBytes function ++ types.map Char.toNat ++ [COLON]).length =
      a + (Instr.call function types).bytes.length := by
    simp [Instr.bytes]
    omega
  have hbytes : (functions g).body.drop a = 'C'.toNat :: (nameBytes function ++ (types.map Char.toNat ++ COLON :: tail)) := by
    rw [htail]
    simp [Instr.bytes]
  refine step_at hbytes ?_
  refine (instruction_call _ _).trans ?_
  simp only [Machine.callCode, readName_nameBytes hi.1, htake, hdrop, hchars, hto, hlen]

theorem step_return {frame : Frame} (h : InstrAt (functions g) a (.op .return)) (hg : g ≠ 0) :
    Step env functions ⟨g, a, stack, frame :: frames, s, none⟩
      ⟨frame.func, frame.addr, stack, frames, (functions g).leave s, none⟩ := by
  obtain ⟨⟨tail, htail⟩, -⟩ := h
  refine step_at htail ?_
  refine (instruction_return _ _).trans ?_
  simp [Machine.returnFrom, hg]

theorem step_return_main (h : InstrAt (functions 0) a (.op .return)) :
    Step env functions ⟨0, a, stack, frames, s, none⟩
      ⟨0, a + 1, stack, frames, s.say "Return from main program.", some .error⟩ := by
  obtain ⟨⟨tail, htail⟩, -⟩ := h
  exact step_at htail rfl

end Bc

end DeviceDriverTest
