import DeviceDriverTest.BcCorrect

/-! Calls and whole runs: the machine enters and leaves the functions as they mean it, and where a run of it ends,
it has done what the line of the program means. -/

namespace DeviceDriverTest

namespace Bc

open BcNumber Realization

/-- The functions are those that the definitions are loaded as. -/
def Compiled (defs : Definitions) (functions : Nat → Function) : Prop :=
  ∀ function ≠ 0, match defs function with
    | none => (functions function).defined = false
    | some d => d.body.Ok ∧ ∃ code, d.generate = some code ∧ (functions function).defined = true ∧
        (functions function).params = d.params.reverse ∧ (functions function).autos = d.autos.reverse ∧
        CodeAt (functions function) 0 code

section Calls

variable {env : Env} {defs : Definitions} {functions : Nat → Function} {g a b : Nat} {frames : List Frame}
  {stack nums : List BcStruct} {types : List Char} {s : Storage}

/-- The parameters take their values from the top of the stack, and nothing else. -/
theorem processParams_append {params : List ArgList} (h : types.length = nums.length) :
    processParams env types params (nums ++ stack) s =
      ((processParams env types params nums s).1.map fun _ => stack, (processParams env types params nums s).2) := by
  induction types generalizing params nums s with
  | nil =>
    obtain rfl := List.length_eq_zero_iff.mp h.symm
    cases params <;> rfl
  | cons ch types ih =>
    obtain ⟨num, nums, rfl⟩ := List.exists_cons_of_length_eq_add_one h.symm
    cases params with
    | nil => rfl
    | cons param params =>
      simp only [List.cons_append, processParams]
      match bindParam env ch param num s with
      | (.ok (), s) => exact ih (Nat.succ.inj h)
      | (.error why, s) => rfl

/-- The code of a function goes on to its end, or to an instruction that returns, with a value on the stack. -/
theorem steps_leave {frame : Frame} {d : Definition} (hg : g ≠ 0)
    (hend : CodeAt (functions g) b [.op .zero, .op .return]) {outcome : Outcome} {b' : Nat} {stack' : List BcStruct}
    (hpost : StmtEnds (functions g) .none b stack outcome b' stack')
    (hleave : (functions g).leave = d.leave) :
    ∃ n m, Steps (Step env functions) n ⟨g, b', stack', frame :: frames, s, none⟩ m ∧
      m = ⟨frame.func, frame.addr, outcome.value :: stack, frames, d.leave s, none⟩ := by
  rw [← hleave]
  cases outcome with
  | normal =>
    obtain ⟨hb, hstack⟩ := hpost
    subst hb hstack
    exact ⟨2, _, .head (step_op hend.1 Op.noConfusion) (.single (step_return hend.2.1 hg)), rfl⟩
  | «break» => exact absurd rfl hpost.1
  | «continue» => exact absurd rfl hpost.1
  | «return» num =>
    obtain ⟨hreturn, hstack⟩ := hpost
    subst hstack
    exact ⟨1, _, .single (step_return hreturn hg), rfl⟩

/-- The induction is on the fuel: one call takes one step at least, the one that enters the function. -/
theorem goes_call (hdefs : Compiled defs functions) (fuel : Nat) : ∀ (g : Nat) (frames : List Frame) (function : Nat)
    (types : List Char) (nums stack : List BcStruct) (a : Nat) (s : Storage) (m : Machine),
    function ≠ 0 → types.length = nums.length →
    Step env functions m ((⟨g, a, nums ++ stack, frames, s, none⟩ : Machine).call env functions function types) →
    Realizes (Step env functions) (Failed functions g frames) (fun num s m => m = ⟨g, a, num :: stack, frames, s, none⟩)
      fuel m (callFunction env defs fuel function types nums s) := by
  induction fuel with
  | zero => exact fun g frames function types nums stack a s m _ _ _ => ⟨0, m, le_refl 0, .refl m⟩
  | succ fuel ih =>
    intro g frames function types nums stack a s m hfunction hlen hcall
    refine Realizes.steps (.single hcall) ?_
    have hdef := hdefs function hfunction
    rw [callFunction]
    cases hd : defs function with
    | none =>
      simp only [hd] at hdef
      rw [Machine.call, hdef]
      exact ⟨0, _, .refl _, rfl, .here _⟩
    | some d =>
      simp only [hd] at hdef ⊢
      obtain ⟨hok, code, hgen, hdefined, hparams, hautos, hcode⟩ := hdef
      have hleave : (functions function).leave = d.leave := by
        funext s
        rw [Function.leave, Definition.leave, hparams, hautos]
      rw [Machine.call, hdefined, hparams, hautos, processParams_append hlen, Definition.enter]
      match processParams env types d.params.reverse nums s with
      | (.error why, s) => exact ⟨0, _, .refl _, rfl, .pop hfunction (hleave ▸ .here _)⟩
      | (.ok _, s) =>
        simp only [Except.map]
        set s := d.autos.reverse.foldl (fun s auto => autoVar s auto.avName) s
        have hfits : Context.Fits ⟨env, some s.iBase, fuel, callFunction env defs fuel⟩ env functions function
            (⟨g, a, s.iBase⟩ :: frames) :=
          ⟨rfl, fun _ => if_neg hfunction, ih function (⟨g, a, s.iBase⟩ :: frames)⟩
        rw [Definition.generate, Option.ite_none_right_eq_some] at hgen
        obtain ⟨-, hgen⟩ := hgen
        obtain ⟨⟨bodyCode, label⟩, hbody, rfl⟩ := Option.map_eq_some_iff.mp hgen
        rw [codeAt_append] at hcode
        have hrun := d.body.goes hfits stack hok hbody ⟨absurd rfl, absurd rfl⟩ hcode.1 s
        refine Realizes.leave hrun (fun outcome s m ⟨b, stack', hpost, hm⟩ => ?_) fun why s m ⟨hstatus, hunwinds⟩ => ?_
        · exact hm ▸ steps_leave hfunction hcode.2 hpost hleave
        · exact ⟨hstatus, hleave ▸ hunwinds.return hfunction⟩

end Calls

/-! The run of a line, with the code of it in the function zero. -/

section Lines

variable {env : Env} {defs : Definitions} {functions : Nat → Function} {fuel label : Nat} {line : Stmts} {code : List Instr}
  {s : Storage} {m m1 m2 : Machine}

theorem step_det (m m1 m2 : Machine) (h1 : Step env functions m m1) (h2 : Step env functions m m2) : m1 = m2 :=
  h1.2.trans h2.2.symm

theorem halted_of_status {why : Stop} (h : m.status = some why) : Halted (Step env functions) m := by
  intro m' hstep
  have hnone := hstep.1.1
  rw [h] at hnone
  exact absurd hnone nofun

theorem halted_at_end (h : (functions m.func).body.length ≤ m.addr) : Halted (Step env functions) m :=
  fun _ hstep => not_lt.mpr h hstep.1.2

theorem goes_line (hdefs : Compiled defs functions) (hok : line.Ok) (hgen : line.generate .none 1 = some (code, label))
    (hcode : CodeAt (functions 0) 0 code) :
    Goes env functions 0 [] fuel 0 [] (runLine env defs fuel line) (ends (codeSize code) fun _ => []) := by
  have hfits : Context.Fits ⟨env, none, fuel, callFunction env defs fuel⟩ env functions 0 [] :=
    ⟨rfl, fun _ => rfl, goes_call hdefs fuel 0 []⟩
  refine (line.goes hfits [] hok hgen ⟨absurd rfl, absurd rfl⟩ hcode).bind' fun outcome b stack hpost => ?_
  match outcome, hpost with
  | .normal, ⟨hb, hstack⟩ => exact Goes.pure ⟨hb.trans (Nat.zero_add _), hstack⟩
  | .break, hpost => exact absurd rfl hpost.1
  | .continue, hpost => exact absurd rfl hpost.1
  | .return num, ⟨hreturn, _⟩ => exact fun s => ⟨1, _, .single (step_return_main hreturn), rfl, .here _⟩

/-- What there is to see of a run that has ended: what it has left behind, and, where `bc` itself has ended, what it
has written. -/
def Machine.Ends (functions : Nat → Function) (m : Machine) : Except Stop Unit × Storage → Prop
  | (.ok (), s) => m.status = none ∧ m.finish functions = s
  | (.error .error, s) => m.status = some .error ∧ m.finish functions = s
  | (.error .exited, s) => m.status = some .exited ∧ m.storage.output = s.output ∧ m.storage.messages = s.messages
  | (.error .undefined, _) => m.status = some .undefined

theorem popVar_writes (s : Storage) (arg : ArgList) :
    (popVar s arg).output = s.output ∧ (popVar s arg).messages = s.messages := by
  unfold popVar
  split <;> exact ⟨rfl, rfl⟩

theorem popVars_writes (list : List ArgList) (s : Storage) :
    (popVars list s).output = s.output ∧ (popVars list s).messages = s.messages := by
  induction list generalizing s with
  | nil => exact ⟨rfl, rfl⟩
  | cons arg list ih =>
    obtain ⟨houtput, hmessages⟩ := popVar_writes s arg
    exact ⟨(ih _).1.trans houtput, (ih _).2.trans hmessages⟩

theorem Unwinds.writes {g func : Nat} {frames rest : List Frame} {s' : Storage} (h : Unwinds functions g frames func rest s s') :
    s.output = s'.output ∧ s.messages = s'.messages := by
  induction h with
  | here => exact ⟨rfl, rfl⟩
  | @pop func frame rest s s' _ _ ih =>
    obtain ⟨houtput1, hmessages1⟩ := popVars_writes (functions func).autos s
    obtain ⟨houtput2, hmessages2⟩ := popVars_writes (functions func).params (popVars (functions func).autos s)
    exact ⟨(houtput2.trans houtput1).symm.trans ih.1, (hmessages2.trans hmessages1).symm.trans ih.2⟩

theorem Failed.ends {why : Stop} (h : Failed functions 0 [] why s m) : m.Ends functions (.error why, s) := by
  obtain ⟨hstatus, hunwinds⟩ := h
  cases why with
  | error => exact ⟨hstatus, by rw [Machine.finish, hstatus, hunwinds.unwind]⟩
  | exited => exact ⟨hstatus, hunwinds.writes⟩
  | undefined => exact hstatus

/-- The machine halts where the line of the program comes to an end, and what it leaves is the same. -/
theorem runLine_iff_halts (hdefs : Compiled defs functions) (hok : line.Ok) (hgen : line.generate .none 1 = some (code, label))
    (hcode : CodeAt (functions 0) 0 code) (hlen : (functions 0).body.length = codeSize code) (s : Storage) :
    (∀ fuel result, runLine env defs fuel line s = some result →
      ∃ n m, Steps (Step env functions) n (.start s) m ∧ Halted (Step env functions) m ∧ m.Ends functions result) ∧
    ∀ n m fuel, Steps (Step env functions) n (.start s) m → Halted (Step env functions) m → n < fuel →
      ∃ result, runLine env defs fuel line s = some result ∧ m.Ends functions result := by
  have hdone : ∀ s : Storage, Halted (Step env functions) ⟨0, codeSize code, [], [], s, none⟩ := fun s =>
    halted_at_end (le_of_eq hlen)
  have hrun : ∀ fuel, Realizes (Step env functions) (Failed functions 0 []) _ fuel (.start s) (runLine env defs fuel line s) :=
    fun fuel => goes_line hdefs hok hgen hcode s
  refine ⟨fun fuel result hresult => ?_, fun n m fuel hsteps hhalted hfuel => ?_⟩
  · specialize hrun fuel
    rw [hresult] at hrun
    match result, hrun with
    | (.ok (), s'), ⟨n, m, hsteps, _, _, ⟨hb, hstack⟩, hm⟩ =>
      subst hb hstack hm
      exact ⟨n, _, hsteps, hdone s', rfl, rfl⟩
    | (.error why, s'), ⟨n, m, hsteps, hfailed⟩ => exact ⟨n, m, hsteps, halted_of_status hfailed.1, hfailed.ends⟩
  · have hend : ∀ (v : Unit) (s : Storage) (m : Machine),
        (∃ b stack, ends (codeSize code) (fun _ => []) v b stack ∧ m = ⟨0, b, stack, [], s, none⟩) →
          Halted (Step env functions) m := by
      rintro v s m ⟨_, _, ⟨rfl, rfl⟩, rfl⟩
      exact hdone s
    obtain ⟨v, s', hresult, _, _, ⟨hb, hstack⟩, hm⟩ | ⟨why, s', hresult, hfailed⟩ :=
      (hrun fuel).halted step_det hend (fun _ _ _ h => halted_of_status h.1) hsteps hhalted hfuel
    · subst hb hstack hm
      exact ⟨_, hresult, rfl, rfl⟩
    · exact ⟨_, hresult, hfailed.ends⟩

end Lines

end Bc

end DeviceDriverTest
