import Mathlib.Algebra.Group.Nat.Defs
import Mathlib.Data.List.Basic

/-! The frames of the tiler streaming program: where the fill before the
streaming and the refill in its loop put the lines of a frame. -/

namespace DeviceDriverTest
namespace TilerLayout

inductive PixelFormat
  | yuyv
  | uyvy
  | rgb565
  | rgb565x
  | rgb24
  | rgb32
  | bgr32
  | nv12
  | other
  deriving DecidableEq

/-- `none` for the -1 of a format that is not supported. -/
def getBpp : PixelFormat → Option UInt32
  | .yuyv => some 2
  | .uyvy => some 2
  | .rgb565 => some 2
  | .rgb565x => some 2
  | .rgb24 => some 3
  | .rgb32 => some 4
  | .bgr32 => some 4
  | .nv12 => some 1
  | .other => none

/-- The format and the buffers of the driver, and the whole frames in the file. -/
structure Stream where
  pixelformat : PixelFormat
  width : UInt32
  height : UInt32
  bufCount : Nat
  reqCount : Nat
  frames : Nat

/-- One line read from the file: its offset in the mapped buffer and its length. -/
structure Row where
  offset : UInt32
  length : UInt32
  deriving DecidableEq

structure Frame where
  index : Nat
  rows : List Row
  deriving DecidableEq

def pageWidth (width bpp : UInt32) : UInt32 := (width * bpp + 4096 - 1) &&& ~~~(4096 - 1)

namespace Stream

variable (s : Stream) (bpp : UInt32)

def lumaRows (pw : UInt32) : List Row :=
  (List.range s.height.toNat).map fun j => ⟨UInt32.ofNat j * pw, s.width * bpp⟩

def chromaRows (pw : UInt32) : List Row :=
  (List.range' s.height.toNat ((s.height * 3 / 2).toNat - s.height.toNat)).map fun j =>
    ⟨UInt32.ofNat j * pw, s.width⟩

def initialRows : List Row :=
  s.lumaRows bpp (pageWidth s.width bpp) ++
    if s.pixelformat = .nv12 then s.chromaRows (pageWidth s.width 2) else []

/-- One frame of the refill loop, and the `page_width` it leaves. -/
def refillFrame (pw : UInt32) : List Row × UInt32 :=
  if s.pixelformat = .nv12 then
    (s.lumaRows bpp pw ++ s.chromaRows (pageWidth s.width 2), pageWidth s.width 2)
  else (s.lumaRows bpp pw, pw)

def pass : Nat → Nat → UInt32 → List Frame
  | 0, _, _ => []
  | n + 1, count, pw =>
    ⟨count % s.reqCount, (s.refillFrame bpp pw).1⟩ :: pass n (count + 1) (s.refillFrame bpp pw).2

/-- The refill loop, for a number of passes; the file ends it. -/
def refill (readCount : Nat) : Nat → Nat → Nat → List Frame
  | 0, _, _ => []
  | passes + 1, available, count =>
    if 2000 ≤ count then []
    else if available < readCount - 1 then s.pass bpp available count (pageWidth s.width bpp)
    else s.pass bpp (readCount - 1) count (pageWidth s.width bpp) ++
      refill readCount passes (available - (readCount - 1)) (count + (readCount - 1))

/-- `none` where the program returns before it streams. -/
def readCount : Option Nat :=
  if s.frames < s.bufCount then if s.frames ≤ 2 then none else some s.frames else some s.reqCount

def streamingVideo (passes : Nat) : List Frame :=
  match getBpp s.pixelformat, s.readCount with
  | some bpp, some readCount => s.refill bpp readCount passes (s.frames - s.bufCount) readCount
  | _, _ => []

def RefillRight : Prop :=
  ∀ bpp, getBpp s.pixelformat = some bpp → ∀ passes, ∀ frame ∈ s.streamingVideo passes, frame.rows = s.initialRows bpp

end Stream

theorem and_pageMask (x : UInt32) : (x &&& ~~~(4096 - 1)).toNat = x.toNat / 4096 * 4096 := by
  have hlt := x.toNat_lt
  show x.toNat &&& 0xFFFFF000 = _
  have hdiv : (x.toNat &&& 0xFFFFF000) / 2 ^ 12 = x.toNat / 2 ^ 12 := by
    rw [Nat.and_div_two_pow]
    show x.toNat / 2 ^ 12 &&& (2 ^ 20 - 1) = _
    rw [Nat.and_two_pow_sub_one_eq_mod, Nat.mod_eq_of_lt (by omega)]
  have hmod : (x.toNat &&& 0xFFFFF000) % 2 ^ 12 = 0 := by
    rw [Nat.and_mod_two_pow]
    exact Nat.and_zero _
  omega

theorem pageWidth_toNat (width bpp : UInt32) :
    (pageWidth width bpp).toNat = (width.toNat * bpp.toNat + 4095) % 2 ^ 32 / 4096 * 4096 := by
  have hsum : (width * bpp + 4096 - 1).toNat = (width.toNat * bpp.toNat + 4095) % 2 ^ 32 := by
    rw [UInt32.toNat_sub, UInt32.toNat_add, UInt32.toNat_mul]
    show (2 ^ 32 - 1 + (width.toNat * bpp.toNat % 2 ^ 32 + 4096) % 2 ^ 32) % 2 ^ 32 = _
    omega
  rw [pageWidth, and_pageMask, hsum]

/-- The two pitches agree below the width of half a page, and where the products wrap. -/
theorem pageWidth_eq_iff (width : UInt32) : pageWidth width 1 = pageWidth width 2 ↔
    width.toNat ≤ 2048 ∨ 2 ^ 32 - 2048 < width.toNat := by
  have hlt := width.toNat_lt
  rw [← UInt32.toNat_inj, pageWidth_toNat, pageWidth_toNat]
  show (width.toNat * 1 + 4095) % 2 ^ 32 / 4096 * 4096 = (width.toNat * 2 + 4095) % 2 ^ 32 / 4096 * 4096 ↔ _
  omega

section Frames

variable {s : Stream} {bpp pw pw' : UInt32} {frame : Frame} {n count passes available readCount : Nat}

theorem lumaRows_eq_iff : s.lumaRows bpp pw = s.lumaRows bpp pw' ↔ s.height.toNat ≤ 1 ∨ pw = pw' := by
  unfold Stream.lumaRows
  rw [List.map_inj_left]
  simp only [List.mem_range, Row.mk.injEq, and_true]
  constructor
  · intro h
    rcases Nat.lt_or_ge 1 s.height.toNat with hone | hone
    · have hsecond := h 1 hone
      rw [show UInt32.ofNat 1 = 1 from rfl, UInt32.one_mul, UInt32.one_mul] at hsecond
      exact .inr hsecond
    · exact .inl hone
  · rintro (hone | rfl) j hj
    · obtain rfl : j = 0 := by omega
      rw [show UInt32.ofNat 0 = 0 from rfl, UInt32.zero_mul, UInt32.zero_mul]
    · rfl

/-- The lines of an NV12 frame whose luma lines have the given pitch. -/
def nv12Rows (s : Stream) (bpp pw : UInt32) : List Row :=
  s.lumaRows bpp pw ++ s.chromaRows (pageWidth s.width 2)

theorem refillFrame_nv12 (h : s.pixelformat = .nv12) (pw : UInt32) :
    s.refillFrame bpp pw = (nv12Rows s bpp pw, pageWidth s.width 2) := if_pos h

theorem initialRows_nv12 (h : s.pixelformat = .nv12) :
    s.initialRows bpp = nv12Rows s bpp (pageWidth s.width bpp) := by
  rw [Stream.initialRows, if_pos h]
  rfl

theorem nv12Rows_eq_iff : nv12Rows s bpp pw = nv12Rows s bpp pw' ↔ s.height.toNat ≤ 1 ∨ pw = pw' := by
  rw [nv12Rows, nv12Rows, List.append_left_inj, lumaRows_eq_iff]

/-- From the second frame of a pass on the luma lines have the pitch of the chroma lines. -/
theorem pass_rows (h : s.pixelformat = .nv12) (hmem : frame ∈ s.pass bpp n count pw) :
    frame.rows = nv12Rows s bpp pw ∨ 2 ≤ n ∧ frame.rows = nv12Rows s bpp (pageWidth s.width 2) := by
  induction n generalizing count pw with
  | zero => exact nomatch hmem
  | succ n ih =>
    rw [Stream.pass, refillFrame_nv12 h] at hmem
    rcases List.mem_cons.mp hmem with rfl | hmem
    · exact .inl rfl
    · have hn : 1 ≤ n := by
        cases n with
        | zero => exact nomatch hmem
        | succ n => omega
      rcases ih hmem with hrows | ⟨-, hrows⟩
      · exact .inr ⟨by omega, hrows⟩
      · exact .inr ⟨by omega, hrows⟩

/-- A frame of the refill loop is one of a pass. -/
theorem refill_pass (hmem : frame ∈ s.refill bpp readCount passes available count) :
    ∃ n start, frame ∈ s.pass bpp n start (pageWidth s.width bpp) ∧ n ≤ readCount - 1 ∧ n ≤ available ∧ count < 2000 := by
  induction passes generalizing available count with
  | zero => exact nomatch hmem
  | succ passes ih =>
    rw [Stream.refill] at hmem
    split at hmem
    · exact nomatch hmem
    split at hmem
    · exact ⟨available, count, hmem, by omega, Nat.le_refl _, by omega⟩
    · rcases List.mem_append.mp hmem with hmem | hmem
      · exact ⟨readCount - 1, count, hmem, Nat.le_refl _, by omega, by omega⟩
      · obtain ⟨n, start, hpass, hread, havail, hcount⟩ := ih hmem
        exact ⟨n, start, hpass, hread, by omega, by omega⟩

theorem refill_rows (h : s.pixelformat = .nv12) (hmem : frame ∈ s.refill bpp readCount passes available count) :
    frame.rows = nv12Rows s bpp (pageWidth s.width bpp) ∨
      2 ≤ readCount - 1 ∧ 2 ≤ available ∧ count < 2000 ∧ frame.rows = nv12Rows s bpp (pageWidth s.width 2) := by
  obtain ⟨n, start, hpass, hread, havail, hcount⟩ := refill_pass hmem
  rcases pass_rows h hpass with hrows | ⟨htwo, hrows⟩
  · exact .inl hrows
  · exact .inr ⟨by omega, by omega, hcount, hrows⟩

theorem pass_second (h : s.pixelformat = .nv12) (hn : 2 ≤ n) :
    ∃ frame ∈ s.pass bpp n count pw, frame.rows = nv12Rows s bpp (pageWidth s.width 2) := by
  obtain ⟨k, rfl⟩ : ∃ k, n = k + 2 := ⟨n - 2, by omega⟩
  rw [Stream.pass, refillFrame_nv12 h, Stream.pass, refillFrame_nv12 h]
  exact ⟨_, List.mem_cons_of_mem _ List.mem_cons_self, rfl⟩

theorem refill_second (h : s.pixelformat = .nv12) (hcount : count < 2000) (hread : 2 ≤ readCount - 1)
    (havail : 2 ≤ available) : ∃ frame ∈ s.refill bpp readCount 1 available count,
      frame.rows = nv12Rows s bpp (pageWidth s.width 2) := by
  rw [Stream.refill, if_neg (by omega)]
  split
  · exact pass_second h havail
  · obtain ⟨frame, hmem, hrows⟩ := @pass_second s bpp (pageWidth s.width bpp) _ count h hread
    exact ⟨frame, List.mem_append_left _ hmem, hrows⟩

theorem pass_rows_other (h : s.pixelformat ≠ .nv12) (hmem : frame ∈ s.pass bpp n count pw) :
    frame.rows = s.lumaRows bpp pw := by
  induction n generalizing count with
  | zero => exact nomatch hmem
  | succ n ih =>
    rw [Stream.pass, Stream.refillFrame, if_neg h] at hmem
    rcases List.mem_cons.mp hmem with rfl | hmem
    · rfl
    · exact ih hmem

theorem refill_rows_other (h : s.pixelformat ≠ .nv12)
    (hmem : frame ∈ s.refill bpp readCount passes available count) : frame.rows = s.initialRows bpp := by
  obtain ⟨n, start, hpass, _⟩ := refill_pass hmem
  rw [Stream.initialRows, if_neg h, List.append_nil]
  exact pass_rows_other h hpass

theorem streamingVideo_eq (hbpp : getBpp s.pixelformat = some bpp) (hmem : frame ∈ s.streamingVideo passes) :
    ∃ r, s.readCount = some r ∧ frame ∈ s.refill bpp r passes (s.frames - s.bufCount) r := by
  rw [Stream.streamingVideo, hbpp] at hmem
  cases hr : s.readCount with
  | none =>
    rw [hr] at hmem
    exact nomatch hmem
  | some r =>
    rw [hr] at hmem
    exact ⟨r, rfl, hmem⟩

def SecondFrame (s : Stream) : Prop := 2 < s.reqCount ∧ s.reqCount < 2000 ∧ s.bufCount + 1 < s.frames

theorem readCount_of_frames (h : s.bufCount < s.frames) : s.readCount = some s.reqCount :=
  if_neg (by omega)

theorem refill_right_iff (s : Stream) : s.RefillRight ↔
    s.pixelformat = .nv12 → SecondFrame s →
      s.height.toNat ≤ 1 ∨ s.width.toNat ≤ 2048 ∨ 2 ^ 32 - 2048 < s.width.toNat := by
  rw [← pageWidth_eq_iff]
  constructor
  · rintro h hnv ⟨hreq, hcount, hframes⟩
    have hbpp : getBpp s.pixelformat = some 1 := by rw [hnv]; rfl
    obtain ⟨frame, hmem, hrows⟩ := @refill_second s 1 s.reqCount (s.frames - s.bufCount) s.reqCount hnv hcount
      (by omega) (by omega)
    have hstream : frame ∈ s.streamingVideo 1 := by
      rw [Stream.streamingVideo, hbpp, readCount_of_frames (by omega)]
      exact hmem
    have hinitial := h 1 hbpp 1 frame hstream
    rw [hrows, initialRows_nv12 hnv, nv12Rows_eq_iff] at hinitial
    exact hinitial.imp_right Eq.symm
  · intro h bpp hbpp passes frame hmem
    obtain ⟨r, hr, hmem⟩ := streamingVideo_eq hbpp hmem
    by_cases hnv : s.pixelformat = .nv12
    · obtain rfl : 1 = bpp := by
        rw [hnv] at hbpp
        exact Option.some.inj hbpp
      rcases refill_rows hnv hmem with hrows | ⟨htwo, havail, hcount, hrows⟩
      · rw [hrows, initialRows_nv12 hnv]
      · obtain rfl : r = s.reqCount := by
          rw [readCount_of_frames (by omega)] at hr
          exact (Option.some.inj hr).symm
        have heq := h hnv ⟨by omega, hcount, by omega⟩
        rw [hrows, initialRows_nv12 hnv, nv12Rows_eq_iff]
        exact heq.imp_right Eq.symm
    · exact refill_rows_other hnv hmem

/-- Three buffers and two lines that take a page of luma and two of chroma. -/
def wide : Stream where
  pixelformat := .nv12
  width := 2050
  height := 2
  bufCount := 3
  reqCount := 3
  frames := 5

theorem wide_second_frame : wide.initialRows 1 = [⟨0, 2050⟩, ⟨4096, 2050⟩, ⟨16384, 2050⟩] ∧
    wide.streamingVideo 1 = [⟨0, wide.initialRows 1⟩, ⟨1, [⟨0, 2050⟩, ⟨8192, 2050⟩, ⟨16384, 2050⟩]⟩] ∧
    ¬ wide.RefillRight := by
  refine ⟨by decide, by decide, fun h => ?_⟩
  have hsecond := h 1 rfl 1 ⟨1, [⟨0, 2050⟩, ⟨8192, 2050⟩, ⟨16384, 2050⟩]⟩ (by decide)
  exact absurd hsecond (by decide)

end Frames

end TilerLayout
end DeviceDriverTest
