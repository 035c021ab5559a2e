/-
# The window as a set of numbers

The wire window is a circle position and 128 bits. `Represents` says which
logical numbers it stands for: a top, and the numbers accepted so far, of which
the map shows the top and the 127 below. Observing a number that lies within
half a turn of the top adds it exactly when it is new and within reach.
-/

import Mlink.Protocol.Seq

namespace Mlink.Protocol

/-! ## Single bits -/

/-- The bits of a one-bit mask. -/
theorem getLsbD_mask {i j : Nat} (hi : i < 128) :
    (1#128 <<< i).getLsbD j = decide (j = i) := by
  by_cases hj : j < 128
  · rw [Bool.eq_iff_iff]
    simp only [BitVec.getLsbD_shiftLeft, BitVec.getLsbD_one, Bool.and_eq_true,
      Bool.not_eq_true', decide_eq_true_eq, decide_eq_false_iff_not]
    omega
  · rw [BitVec.getLsbD_of_ge _ _ (Nat.not_lt.mp hj)]
    symm
    rw [decide_eq_false_iff_not]
    omega

/-- A one-bit mask reads its bit. -/
theorem and_mask_ne_zero_iff {bits : BitVec 128} {i : Nat} (hi : i < 128) :
    bits &&& 1#128 <<< i ≠ 0 ↔ bits.getLsbD i = true := by
  constructor
  · intro hne
    by_contra hclear
    apply hne
    apply BitVec.eq_of_getLsbD_eq
    intro j hj
    by_cases hji : j = i
    · simp [hji, hclear]
    · simp [BitVec.getLsbD_and, getLsbD_mask hi, hji]
  · intro hset hzero
    have hbit := congrArg (fun map : BitVec 128 => map.getLsbD i) hzero
    simp [BitVec.getLsbD_and, getLsbD_mask hi, hset] at hbit

/-- Marking one more number in the map. -/
theorem getLsbD_mark {bits : BitVec 128} {back i : Nat} (hback : back < 128) :
    (bits ||| 1#128 <<< back).getLsbD i = true ↔ bits.getLsbD i = true ∨ i = back := by
  simp [BitVec.getLsbD_or, getLsbD_mask hback]

/-- Sliding the map by `forward` and marking the new top. -/
theorem getLsbD_slide {bits : BitVec 128} {forward i : Nat} (hi : i < 128) :
    (bits <<< forward ||| 1#128).getLsbD i = true ↔
      i = 0 ∨ forward ≤ i ∧ bits.getLsbD (i - forward) = true := by
  simp only [BitVec.getLsbD_or, BitVec.getLsbD_shiftLeft, BitVec.getLsbD_one, Bool.or_eq_true,
    Bool.and_eq_true, Bool.not_eq_true', decide_eq_true_eq, decide_eq_false_iff_not]
  constructor
  · rintro (⟨⟨_, hle⟩, hbit⟩ | ⟨_, hzero⟩)
    · exact .inr ⟨Nat.not_lt.mp hle, hbit⟩
    · exact .inl hzero
  · rintro (hzero | ⟨hle, hbit⟩)
    · exact .inr ⟨by omega, hzero⟩
    · exact .inl ⟨⟨hi, Nat.not_lt.mpr hle⟩, hbit⟩

/-! ## What a window stands for -/

namespace DedupWindow

/-- The map shows which numbers at and below the top are in `seen`. -/
def Shows (bits : BitVec 128) (top : Nat) (seen : List Nat) : Prop :=
  ∀ i < 128, bits.getLsbD i = true ↔ i ≤ top ∧ top - i ∈ seen

/-- A single bit shows a top and nothing within reach below it. -/
theorem shows_one {seq : Nat} {seen : List Nat}
    (far : ∀ other ∈ seen, other + 128 ≤ seq) : Shows 1#128 seq (seq :: seen) := by
  intro i hi
  simp only [BitVec.getLsbD_one, Bool.and_eq_true, decide_eq_true_eq, List.mem_cons]
  constructor
  · rintro ⟨_, rfl⟩
    exact ⟨Nat.zero_le _, .inl (Nat.sub_zero _)⟩
  · rintro ⟨hle, hseq | hmem⟩
    · omega
    · have hfar := far _ hmem
      omega

/-- Sliding to a new top keeps the numbers that stay within reach. -/
theorem shows_slide {bits : BitVec 128} {top seq : Nat} {seen : List Nat}
    (shows : Shows bits top seen) (le_top : ∀ other ∈ seen, other ≤ top) (ahead : top < seq) :
    Shows (bits <<< (seq - top) ||| 1#128) seq (seq :: seen) := by
  intro i hi
  rw [getLsbD_slide hi, List.mem_cons]
  constructor
  · rintro (rfl | ⟨hle, hbit⟩)
    · exact ⟨Nat.zero_le _, .inl (Nat.sub_zero _)⟩
    · obtain ⟨hreach, hmem⟩ := (shows (i - (seq - top)) (by omega)).mp hbit
      have hsame : top - (i - (seq - top)) = seq - i := by omega
      rw [hsame] at hmem
      exact ⟨by omega, .inr hmem⟩
  · rintro ⟨hle, hseq | hmem⟩
    · exact .inl (by omega)
    · have hbelow := le_top _ hmem
      have hsame : top - (i - (seq - top)) = seq - i := by omega
      refine .inr ⟨by omega, (shows (i - (seq - top)) (by omega)).mpr ⟨by omega, ?_⟩⟩
      rw [hsame]
      exact hmem

/-- Marking a number behind the top adds it to what the map shows. -/
theorem shows_mark {bits : BitVec 128} {top seq : Nat} {seen : List Nat}
    (shows : Shows bits top seen) (behind : seq < top) (reach : top < seq + 128) :
    Shows (bits ||| 1#128 <<< (top - seq)) top (seq :: seen) := by
  intro i hi
  rw [getLsbD_mark (by omega), shows i hi, List.mem_cons]
  constructor
  · rintro (⟨hle, hmem⟩ | rfl)
    · exact ⟨hle, .inr hmem⟩
    · exact ⟨by omega, .inl (by omega)⟩
  · rintro ⟨hle, hseq | hmem⟩
    · exact .inr (by omega)
    · exact .inl ⟨hle, hmem⟩

/-- The number is ahead of the top by less than half a turn. -/
def Ahead (window : DedupWindow) (seq : UInt32) : Prop :=
  Serial.distance seq window.last ≠ 0 ∧ Serial.distance seq window.last < 0x80000000

/-- What a window in use makes of a number: it slides to one ahead of it, rejects
its top and what is out of reach behind it, and looks the bit of any other up. -/
theorem observe_cases {window : DedupWindow} (used : window.seen = true) (seq : UInt32) :
    (window.Ahead seq ∧ window.observe seq = (.accept, ⟨seq,
        if 128 ≤ Serial.distance seq window.last then 1#128
        else window.bits <<< Serial.distance seq window.last ||| 1#128, true⟩)) ∨
      (¬ window.Ahead seq ∧ seq = window.last ∧ window.observe seq = (.duplicate, window)) ∨
      (¬ window.Ahead seq ∧ 128 ≤ Serial.distance window.last seq ∧
        window.observe seq = (.stale, window)) ∨
      (¬ window.Ahead seq ∧ Serial.distance window.last seq < 128 ∧
        window.bits.getLsbD (Serial.distance window.last seq) = true ∧
        window.observe seq = (.duplicate, window)) ∨
      (¬ window.Ahead seq ∧ seq ≠ window.last ∧ Serial.distance window.last seq < 128 ∧
        ¬ window.bits.getLsbD (Serial.distance window.last seq) = true ∧
        window.observe seq = (.accept,
          { window with bits := window.bits ||| 1#128 <<< Serial.distance window.last seq })) := by
  simp only [observe, used, Bool.true_eq_false, if_false]
  by_cases hahead : window.Ahead seq
  · exact .inl ⟨hahead, if_pos hahead⟩
  · right
    have hbehind : ¬ (Serial.distance seq window.last ≠ 0 ∧
      Serial.distance seq window.last < 0x80000000) := hahead
    rw [if_neg hbehind]
    by_cases hsame : Serial.distance seq window.last = 0
    · exact .inl ⟨hahead, Serial.distance_eq_zero_iff.mp hsame, if_pos hsame⟩
    · right
      rw [if_neg hsame]
      by_cases hfar : 128 ≤ Serial.distance window.last seq
      · exact .inl ⟨hahead, hfar, if_pos hfar⟩
      · right
        have hreach := Nat.not_le.mp hfar
        rw [if_neg hfar]
        by_cases hmarked : window.bits &&& 1#128 <<< Serial.distance window.last seq ≠ 0
        · exact .inl ⟨hahead, hreach, (and_mask_ne_zero_iff hreach).mp hmarked, if_pos hmarked⟩
        · exact .inr ⟨hahead, fun hlast => hsame (Serial.distance_eq_zero_iff.mpr hlast), hreach,
            fun hbit => hmarked ((and_mask_ne_zero_iff hreach).mpr hbit), if_neg hmarked⟩

/-- A window in use stands for the top number and the numbers accepted. -/
structure Represents (window : DedupWindow) (top : Nat) (seen : List Nat) : Prop where
  used : window.seen = true
  last : window.last = UInt32.ofNat top
  top_mem : top ∈ seen
  le_top : ∀ seq ∈ seen, seq ≤ top
  shows : Shows window.bits top seen

/-- The first observation is accepted and is all the window stands for. -/
theorem represents_first {window : DedupWindow} (fresh : window.seen = false) (seq : Nat) :
    (window.observe (UInt32.ofNat seq)).1 = .accept ∧
      (window.observe (UInt32.ofNat seq)).2.Represents seq [seq] := by
  rw [observe_of_not_seen fresh]
  exact ⟨rfl, rfl, rfl, List.mem_singleton_self _, by simp, shows_one (by simp)⟩

/-- What becomes of a number observed by a window that stands for a top and the
numbers accepted. -/
structure Outcome (window : DedupWindow) (top seq : Nat) (seen : List Nat) : Prop where
  accept_iff : (window.observe (UInt32.ofNat seq)).1 = .accept ↔ seq ∉ seen ∧ top < seq + 128
  stale_iff : (window.observe (UInt32.ofNat seq)).1 = .stale ↔ seq + 128 ≤ top
  represents : (window.observe (UInt32.ofNat seq)).1 = .accept →
    (window.observe (UInt32.ofNat seq)).2.Represents (max top seq) (seq :: seen)
  unchanged : (window.observe (UInt32.ofNat seq)).1 ≠ .accept →
    (window.observe (UInt32.ofNat seq)).2 = window

/-- What an observation at less than half a turn ahead of the top and at most half a
turn behind it does. Ahead of the top it slides the window, behind it it marks a
free place within reach, and anywhere else it leaves the window alone. -/
theorem outcome_of_represents {window : DedupWindow} {top seq : Nat} {seen : List Nat}
    (represents : window.Represents top seen) (forward : seq < top + 2 ^ 31)
    (backward : top ≤ seq + 2 ^ 31) : Outcome window top seq seen := by
  obtain ⟨hused, hlast, htop, hle, hshows⟩ := represents
  have hahead : window.Ahead (UInt32.ofNat seq) ↔ top < seq := by
    rw [Ahead, hlast, Serial.distance_ofNat]
    omega
  have hback : ¬ window.Ahead (UInt32.ofNat seq) →
      seq ≤ top ∧ Serial.distance window.last (UInt32.ofNat seq) = top - seq := by
    intro hbehind
    have hbelow := Nat.not_lt.mp (mt hahead.mpr hbehind)
    exact ⟨hbelow, by rw [hlast, Serial.distance_of_le hbelow (by omega)]⟩
  rcases observe_cases hused (UInt32.ofNat seq) with ⟨hslides, hobserve⟩ |
    ⟨hbehind, hsame, hobserve⟩ | ⟨hbehind, hfar, hobserve⟩ |
    ⟨hbehind, hreach, hmarked, hobserve⟩ | ⟨hbehind, hother, hreach, hunmarked, hobserve⟩
  · -- ahead of the top: nothing seen is as high as `seq`
    have hlater := hahead.mp hslides
    have hdistance : Serial.distance (UInt32.ofNat seq) window.last = seq - top := by
      rw [hlast, Serial.distance_of_le (le_of_lt hlater) (by omega)]
    have hnew : seq ∉ seen := fun hmem => absurd (hle seq hmem) (Nat.not_le.mpr hlater)
    refine ⟨by rw [hobserve]; simp [hnew]; omega, by rw [hobserve]; simp; omega, ?_,
      by rw [hobserve]; simp⟩
    intro _
    rw [hobserve, hdistance, Nat.max_eq_right (le_of_lt hlater)]
    refine ⟨rfl, rfl, List.mem_cons_self, ?_, ?_⟩
    · intro other hother
      rcases List.mem_cons.mp hother with rfl | hmem
      · exact le_refl _
      · exact le_trans (hle other hmem) (le_of_lt hlater)
    · dsimp only
      split_ifs with hfar
      · apply shows_one
        intro other hother
        have hbelow := hle other hother
        omega
      · exact shows_slide hshows hle hlater
  · -- the top itself: a duplicate
    obtain ⟨hbelow, hdistance⟩ := hback hbehind
    rw [Serial.distance_eq_zero_iff.mpr hsame.symm] at hdistance
    have heq : seq = top := by omega
    subst heq
    exact ⟨by rw [hobserve]; simp [htop], by rw [hobserve]; simp, by rw [hobserve]; simp,
      by rw [hobserve]; simp⟩
  · -- out of reach behind the top
    obtain ⟨hbelow, hdistance⟩ := hback hbehind
    rw [hdistance] at hfar
    exact ⟨by rw [hobserve]; simp; omega, by rw [hobserve]; simp; omega,
      by rw [hobserve]; simp, by rw [hobserve]; simp⟩
  · -- behind the top, and its bit says that it was seen
    obtain ⟨hbelow, hdistance⟩ := hback hbehind
    rw [hdistance] at hreach hmarked
    have hmem := ((hshows (top - seq) hreach).mp hmarked).2
    rw [Nat.sub_sub_self hbelow] at hmem
    exact ⟨by rw [hobserve]; simp [hmem], by rw [hobserve]; simp; omega,
      by rw [hobserve]; simp, by rw [hobserve]; simp⟩
  · -- behind the top, and its bit says that it was not
    obtain ⟨hbelow, hdistance⟩ := hback hbehind
    rw [hdistance] at hreach hunmarked hobserve
    have hnew : seq ∉ seen := by
      intro hmem
      apply hunmarked
      rw [hshows (top - seq) hreach, Nat.sub_sub_self hbelow]
      exact ⟨Nat.sub_le _ _, hmem⟩
    have hlater : seq < top := by
      apply lt_of_le_of_ne hbelow
      rintro rfl
      exact hother hlast.symm
    refine ⟨by rw [hobserve]; simp [hnew]; omega, by rw [hobserve]; simp; omega, ?_,
      by rw [hobserve]; simp⟩
    intro _
    rw [hobserve, Nat.max_eq_left hbelow]
    refine ⟨hused, hlast, List.mem_cons_of_mem _ htop, ?_, ?_⟩
    · intro other hmem
      rcases List.mem_cons.mp hmem with rfl | hold
      · exact hbelow
      · exact hle other hold
    · exact shows_mark hshows hlater (by omega)

/-- An observation within half a turn of the top either way is accepted when it is
new and within reach, and leaves the window alone otherwise. -/
theorem represents_observe {window : DedupWindow} {top seq : Nat} {seen : List Nat}
    (represents : window.Represents top seen) (forward : seq < top + 2 ^ 31)
    (backward : top < seq + 2 ^ 31) :
    ((window.observe (UInt32.ofNat seq)).1 = .accept ↔ seq ∉ seen ∧ top < seq + 128) ∧
      ((window.observe (UInt32.ofNat seq)).1 = .accept →
        (window.observe (UInt32.ofNat seq)).2.Represents (max top seq) (seq :: seen)) ∧
      ((window.observe (UInt32.ofNat seq)).1 ≠ .accept →
        (window.observe (UInt32.ofNat seq)).2 = window) := by
  have houtcome := outcome_of_represents represents forward (le_of_lt backward)
  exact ⟨houtcome.accept_iff, houtcome.represents, houtcome.unchanged⟩

/-! ## What a mark proves -/

/-- Only numbers that were accepted are marked, the top among them. -/
structure MarksOnly (window : DedupWindow) (accepted : List UInt32) : Prop where
  last : window.seen = true → window.last ∈ accepted
  marks : window.seen = true → ∀ seq, Serial.distance window.last seq < 128 →
    window.bits.getLsbD (Serial.distance window.last seq) = true → seq ∈ accepted

/-- A number fits a window that has seen nothing, and one that has if it is ahead
of the top by less than half a turn, or at most 127 behind it and was not
accepted before. -/
def Fits (window : DedupWindow) (accepted : List UInt32) (seq : UInt32) : Prop :=
  window.seen = false ∨
    (Serial.distance seq window.last ≠ 0 ∧ Serial.distance seq window.last < 2 ^ 31) ∨
    (Serial.distance window.last seq < 128 ∧ seq ∉ accepted)

instance (window : DedupWindow) (accepted : List UInt32) (seq : UInt32) :
    Decidable (window.Fits accepted seq) :=
  inferInstanceAs (Decidable (_ = false ∨ (_ ∧ _) ∨ _ ∧ seq ∉ accepted))

theorem marksOnly_new (accepted : List UInt32) : MarksOnly .new accepted := ⟨nofun, nofun⟩

variable {window : DedupWindow} {accepted : List UInt32} {seq : UInt32}

/-- A number that fits is accepted. -/
theorem observe_of_fits (marksOnly : window.MarksOnly accepted)
    (fits : window.Fits accepted seq) : (window.observe seq).1 = .accept := by
  cases hused : window.seen with
  | false => rw [observe_of_not_seen hused]
  | true =>
      rw [Fits, hused] at fits
      have hfits : window.Ahead seq ∨ _ := fits.resolve_left Bool.noConfusion
      rcases observe_cases hused seq with ⟨_, hobserve⟩ | ⟨hbehind, hsame, _⟩ |
        ⟨hbehind, hfar, _⟩ | ⟨hbehind, hreach, hmarked, _⟩ | ⟨_, _, _, _, hobserve⟩
      · rw [hobserve]
      · -- the number is the top, which was accepted
        have hnew := (hfits.resolve_left hbehind).2
        rw [hsame] at hnew
        exact absurd (marksOnly.last hused) hnew
      · exact absurd (hfits.resolve_left hbehind).1 (Nat.not_lt.mpr hfar)
      · exact absurd (marksOnly.marks hused seq hreach hmarked) (hfits.resolve_left hbehind).2
      · rw [hobserve]

/-- After a slide, a mark is of the new top or was there before. -/
theorem marks_slide (marksOnly : window.MarksOnly accepted) (used : window.seen = true)
    {other : UInt32} (reach : Serial.distance seq other < 128)
    (marked : (window.bits <<< Serial.distance seq window.last ||| 1#128).getLsbD
      (Serial.distance seq other) = true) : other ∈ seq :: accepted := by
  rcases (getLsbD_slide reach).mp marked with hzero | ⟨hle, hbit⟩
  · rw [Serial.distance_eq_zero_iff.mp hzero]
    exact List.mem_cons_self
  · apply List.mem_cons_of_mem
    rw [← Serial.distance_eq_sub hle] at hbit
    apply marksOnly.marks used other _ hbit
    rw [Serial.distance_eq_sub hle]
    omega

/-- An observation marks the number that it accepts and no other. -/
theorem MarksOnly.observe (marksOnly : window.MarksOnly accepted) (seq : UInt32) :
    (window.observe seq).2.MarksOnly
      (if (window.observe seq).1 = .accept then seq :: accepted else accepted) := by
  have hfirst : MarksOnly ⟨seq, 1#128, true⟩ (seq :: accepted) := by
    refine ⟨fun _ => List.mem_cons_self, ?_⟩
    intro _ other hreach hbit
    have hzero : Serial.distance seq other = 0 := by simpa using hbit
    rw [Serial.distance_eq_zero_iff.mp hzero]
    exact List.mem_cons_self
  cases hused : window.seen with
  | false =>
      rw [observe_of_not_seen hused, if_pos rfl]
      exact hfirst
  | true =>
      rcases observe_cases hused seq with ⟨_, hobserve⟩ | ⟨_, _, hobserve⟩ |
        ⟨_, _, hobserve⟩ | ⟨_, _, _, hobserve⟩ | ⟨_, _, hback, _, hobserve⟩
      · rw [hobserve, if_pos rfl]
        dsimp only
        split_ifs
        · exact hfirst
        · refine ⟨fun _ => List.mem_cons_self, ?_⟩
          intro _ other hreach hbit
          exact marks_slide marksOnly hused hreach hbit
      · rw [hobserve]
        exact marksOnly
      · rw [hobserve]
        exact marksOnly
      · rw [hobserve]
        exact marksOnly
      · rw [hobserve, if_pos rfl]
        refine ⟨fun used => List.mem_cons_of_mem _ (marksOnly.last used), ?_⟩
        intro used other hreach hbit
        rcases (getLsbD_mark hback).mp hbit with hold | hnew
        · exact List.mem_cons_of_mem _ (marksOnly.marks used other hreach hold)
        · rw [Serial.eq_of_distance_eq hnew]
          exact List.mem_cons_self

end DedupWindow

end Mlink.Protocol
