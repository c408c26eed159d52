import Mathlib.Data.List.Basic
import OrderTicket.Proofs.Text.LetterCase

/-!
# Upper case stays

The upper case of a text is its own upper case: none of the characters that the mapping leads to is
moved by it again. On the table that is a comparison of the places of runs, and not of characters.

* `Text.CaseRun.avoids`: a run leads past another one, `Text.CaseRun.not_covers_of_avoids`.
* `Text.upperRun_of_mem`, `Text.of_mem_upperExpansions`: what the table says, run by run.
* `Text.upperChar_of_mem`: characters of the upper case of a character.
* `Text.upper_upper`: texts.
* `Text.upperChar_cases`: the characters whose upper case may be of ASCII, though they are not.
* `Text.upper_ne_empty`: no text vanishes.
* `Text.lower_upper`: on texts of ASCII the two mappings undo each other.
-/

namespace OrderTicket.Text

/-! ## Where the runs lead -/

namespace CaseRun

variable {run other : CaseRun} {code : Nat}

/-- Where a run moves a code point. -/
def image (run : CaseRun) (code : Nat) : Nat :=
  (code + run.offset).toNat

/-- Whether the code points that a run leads to are beyond the ends of another run, or are the
ones that it leaves out. -/
def avoids (run other : CaseRun) : Bool :=
  Nat.blt (run.image run.last) other.first || Nat.blt other.last (run.image run.first) ||
    (Nat.beq other.stride 2 && (Nat.beq run.stride 2 || Nat.beq run.first run.last) &&
      Nat.beq ((run.image run.first + other.first) % 2) 1)

theorem covers_iff :
    run.covers code = true ↔
      run.first ≤ code ∧ code ≤ run.last ∧ (code - run.first) % run.stride = 0 := by
  simp [covers, and_assoc]

/-- A run that another one avoids has none of the code points that the other one leads to. -/
theorem not_covers_of_avoids (havoids : run.avoids other = true) (hcode : run.covers code = true)
    (hstart : 0 ≤ run.first + run.offset) : other.covers (run.image code) = false := by
  refine Bool.eq_false_iff.2 fun hother => ?_
  obtain ⟨hfirst, hlast, hstride⟩ := covers_iff.1 hcode
  obtain ⟨hofirst, holast, hostride⟩ := covers_iff.1 hother
  simp only [avoids, Bool.or_eq_true, Bool.and_eq_true, Nat.blt_eq, Nat.beq_eq] at havoids
  unfold image at *
  rcases havoids with (hbelow | habove) | ⟨⟨htwo, hone⟩, hodd⟩
  · omega
  · omega
  · -- the run keeps the parity of its first code point, and the other one has the other parity
    have hparity : (code - run.first) % 2 = 0 := by
      rcases hone with hone | hone
      · rwa [hone] at hstride
      · omega
    rw [htwo] at hostride
    omega

end CaseRun

/-- What the table of upper case says about one of its runs. -/
structure UpperRun (run : CaseRun) : Prop where
  /-- The run leads to characters. -/
  start : 0 ≤ run.first + run.offset
  valid : run.last + run.offset < 0xD800 ∨
    (0xDFFF < run.first + run.offset ∧ run.last + run.offset < 0x110000)
  /-- It leads from ASCII to ASCII and from other characters to other ones, unless it moves the
  dotless i or the long s. -/
  ascii : run.last < 128 ∨ (run.first = 0x131 ∧ run.last = 0x131 ∧ run.offset = -232) ∨
    (run.first = 0x17F ∧ run.last = 0x17F) ∨ 128 ≤ run.first + run.offset
  /-- It does not lead to a character that is moved again. -/
  avoids : ∀ other ∈ upperRuns, run.avoids other = true
  /-- It does not lead to a character with an expansion. -/
  avoids_expansion : ∀ expansion ∈ upperExpansions,
    run.avoids ⟨expansion.1, expansion.1, 1, 0⟩ = true

theorem upperRun_of_mem {run : CaseRun} (h : run ∈ upperRuns) : UpperRun run := by
  have hall : upperRuns.all (fun run =>
      decide (0 ≤ run.first + run.offset) &&
      decide (run.last + run.offset < 0xD800 ∨
        (0xDFFF < run.first + run.offset ∧ run.last + run.offset < 0x110000)) &&
      decide (run.last < 128 ∨ (run.first = 0x131 ∧ run.last = 0x131 ∧ run.offset = -232) ∨
        (run.first = 0x17F ∧ run.last = 0x17F) ∨ 128 ≤ run.first + run.offset) &&
      upperRuns.all run.avoids &&
      upperExpansions.all fun expansion => run.avoids ⟨expansion.1, expansion.1, 1, 0⟩) = true := by
    decide +kernel
  have hrun := List.all_eq_true.1 hall run h
  simp only [Bool.and_eq_true, decide_eq_true_eq, List.all_eq_true] at hrun
  obtain ⟨⟨⟨⟨hstart, hvalid⟩, hascii⟩, havoids⟩, hexpansion⟩ := hrun
  exact ⟨hstart, hvalid, hascii, havoids, hexpansion⟩

/-! ## Characters in upper case -/

variable {c d : Char}

/-- A character that a run leads to is its own upper case. -/
theorem upperChar_of_covers {run : CaseRun} (hrun : run ∈ upperRuns)
    (hcovers : run.covers c.toNat = true) (hd : d = Char.ofNat (run.image c.toNat)) :
    upperChar d = [d] := by
  obtain ⟨hstart, hvalid, -, havoids, hexpansion⟩ := upperRun_of_mem hrun
  obtain ⟨hfirst, hlast, -⟩ := CaseRun.covers_iff.1 hcovers
  have hd : d.toNat = run.image c.toNat := by
    rw [hd, toNat_ofNat_of_isValid]
    unfold CaseRun.image Nat.isValidChar
    omega
  have hmissed {other : CaseRun} (h : run.avoids other = true) : other.covers d.toNat = false :=
    hd ▸ CaseRun.not_covers_of_avoids h hcovers hstart
  have hruns : ∀ other ∈ upperRuns, other.covers d.toNat = false := fun other hother =>
    hmissed (havoids other hother)
  rw [upperChar]
  split
  · -- the letters of ASCII are the first run of the table
    have hsmall := hruns ⟨0x61, 0x7A, 1, -32⟩ List.mem_cons_self
    simp only [CaseRun.covers, Bool.and_eq_false_iff, decide_eq_false_iff_not, Nat.mod_one,
      beq_self_eq_true, Bool.true_eq_false, or_false] at hsmall
    have hself : d.toUpper = d := by
      refine dif_neg ?_
      rintro ⟨ha, hz⟩
      have ha : 97 ≤ d.toNat := ha
      have hz : d.toNat ≤ 122 := hz
      omega
    rw [hself]
  · have hnoExpansion : upperExpansions.find? (·.1 == d.toNat) = none := by
      refine List.find?_eq_none.2 fun expansion hmem heq => ?_
      have hmiss := hmissed (hexpansion expansion hmem)
      have hcode : expansion.1 = d.toNat := by simpa using heq
      simp [CaseRun.covers, hcode] at hmiss
    have hnoRun : upperRuns.find? (·.covers d.toNat) = none :=
      List.find?_eq_none.2 fun other hother => by simp [hruns other hother]
    rw [mapCase, hnoExpansion, hnoRun]

/-- The upper case of ASCII is that of ASCII. -/
theorem upperChar_of_ascii (hc : c.toNat < 128) : upperChar c = [c.toUpper] := by
  rw [upperChar, if_pos hc]

/-- The upper case of a character of ASCII is one, and both have the same lower case. -/
theorem toUpper_ascii (hc : c.toNat < 128) : c.toUpper.toNat < 128 ∧
    c.toUpper.toUpper = c.toUpper ∧ c.toUpper.toLower = c.toLower :=
  forall_ascii c hc (by decide +kernel)

/-- The characters of an expansion are their own upper case. Not all of them are of ASCII, unless
there is an I, an F, or a second letter behind an S. -/
theorem of_mem_upperExpansions {expansion : Nat × List Nat} (h : expansion ∈ upperExpansions) :
    (∀ n ∈ expansion.2, upperChar (Char.ofNat n) = [Char.ofNat n]) ∧
      ((∃ d ∈ expansion.2.map Char.ofNat, 128 ≤ d.toNat ∨ d = 'I' ∨ d = 'F') ∨
        expansion.2.map Char.ofNat = ['S', 'S'] ∨ expansion.2.map Char.ofNat = ['S', 'T']) := by
  have hall : upperExpansions.all (fun expansion =>
      (expansion.2.all fun n => upperChar (Char.ofNat n) == [Char.ofNat n]) &&
      ((expansion.2.map Char.ofNat).any (fun d => decide (128 ≤ d.toNat ∨ d = 'I' ∨ d = 'F')) ||
        expansion.2.map Char.ofNat == ['S', 'S'] ||
          expansion.2.map Char.ofNat == ['S', 'T'])) = true := by
    decide +kernel
  have hexpansion := List.all_eq_true.1 hall expansion h
  simpa only [Bool.and_eq_true, List.all_eq_true, Bool.or_eq_true, List.any_eq_true,
    decide_eq_true_eq, beq_iff_eq, or_assoc] using hexpansion

/-- Every character of the upper case of a character is its own upper case. -/
theorem upperChar_of_mem (h : d ∈ upperChar c) : upperChar d = [d] := by
  by_cases hc : c.toNat < 128
  · rw [upperChar_of_ascii hc, List.mem_singleton] at h
    obtain ⟨hascii, hself, -⟩ := toUpper_ascii hc
    rw [h, upperChar_of_ascii hascii, hself]
  · rw [upperChar, if_neg hc, mapCase] at h
    split at h
    · rename_i code image hfind
      obtain ⟨n, hn, rfl⟩ := List.mem_map.1 h
      exact (of_mem_upperExpansions (List.mem_of_find?_eq_some hfind)).1 n hn
    · split at h
      · rename_i run hfind
        have hcovers := List.find?_some hfind
        exact upperChar_of_covers (List.mem_of_find?_eq_some hfind) hcovers (List.mem_singleton.1 h)
      · -- the character has no other upper case
        rename_i _ hnoExpansion _ hnoRun
        obtain rfl : d = c := List.mem_singleton.1 h
        rw [upperChar, if_neg hc, mapCase, hnoExpansion, hnoRun]

/-! ## Texts in upper case -/

/-- The upper case of a text is its own upper case. -/
@[simp]
theorem upper_upper (s : String) : upper (upper s) = upper s := by
  have hlist : (upper s).toList.flatMap upperChar = (upper s).toList := by
    have hself : ∀ d ∈ (upper s).toList, upperChar d = [d] := by
      intro d hd
      rw [upper, String.toList_ofList] at hd
      obtain ⟨c, -, hc⟩ := List.mem_flatMap.1 hd
      exact upperChar_of_mem hc
    rw [List.flatMap_congr hself, List.flatMap_singleton']
  rw [upper, hlist, String.ofList_toList]

/-- The upper case of two texts together is that of each. -/
@[simp]
theorem upper_append (s t : String) : upper (s ++ t) = upper s ++ upper t := by
  apply String.toList_injective
  simp [upper]

/-! ## Upper case in ASCII -/

/-- A character that is not of ASCII is the long s, or its upper case has a character that is not of
ASCII either, or one that other letters than the long s lead to: an I, an F, or a second letter
behind an S. -/
theorem upperChar_cases (hc : 128 ≤ c.toNat) :
    c = 'ſ' ∨ (∃ d ∈ upperChar c, 128 ≤ d.toNat ∨ d = 'I' ∨ d = 'F') ∨
      upperChar c = ['S', 'S'] ∨ upperChar c = ['S', 'T'] := by
  rw [upperChar, if_neg (by omega), mapCase]
  split
  · rename_i code image hfind
    exact .inr (of_mem_upperExpansions (List.mem_of_find?_eq_some hfind)).2
  · split
    · rename_i run hfind
      have hcovers := List.find?_some hfind
      have hrun := List.mem_of_find?_eq_some hfind
      obtain ⟨hfirst, hlast, -⟩ := CaseRun.covers_iff.1 hcovers
      obtain ⟨hstart, hvalid, hascii, -, -⟩ := upperRun_of_mem hrun
      -- only the runs of the dotless i and the long s lead into ASCII
      rcases hascii with hascii | ⟨h, h', hoffset⟩ | ⟨h, h'⟩ | hother
      · omega
      · have hcode : c.toNat = 0x131 := by omega
        rw [hcode, hoffset]
        exact .inr (.inl ⟨_, List.mem_cons_self, by decide⟩)
      · have hcode : c.toNat = 0x17F := by omega
        exact .inl (by rw [← Char.ofNat_toNat c, hcode])
      · refine .inr (.inl ⟨_, List.mem_cons_self, .inl ?_⟩)
        have hchar : (c.toNat + run.offset).toNat.isValidChar := by
          unfold Nat.isValidChar
          omega
        rw [toNat_ofNat_of_isValid hchar]
        omega
    · exact .inr (.inl ⟨c, List.mem_cons_self, .inl hc⟩)

/-- No character vanishes in upper case. -/
theorem upperChar_ne_nil (c : Char) : upperChar c ≠ [] := by
  by_cases hc : c.toNat < 128
  · rw [upperChar_of_ascii hc]
    exact List.cons_ne_nil _ _
  · rcases upperChar_cases (Nat.not_lt.1 hc) with rfl | ⟨d, hd, -⟩ | heq | heq
    · decide +kernel
    · exact List.ne_nil_of_mem hd
    · rw [heq]
      exact List.cons_ne_nil _ _
    · rw [heq]
      exact List.cons_ne_nil _ _

/-- The upper case of a text is not empty unless the text is. -/
theorem upper_ne_empty {s : String} (h : s ≠ "") : upper s ≠ "" := by
  intro hupper
  have hflat : s.toList.flatMap upperChar = [] := by
    rw [← String.toList_ofList (l := s.toList.flatMap upperChar)]
    exact congrArg String.toList hupper
  -- the first character would have no upper case
  cases hs : s.toList with
  | nil => exact h (String.toList_injective hs)
  | cons c rest =>
    rw [hs, List.flatMap_cons, List.append_eq_nil_iff] at hflat
    exact upperChar_ne_nil c hflat.1

/-- On a text of ASCII the upper case keeps all that the lower case depends on. -/
theorem lower_upper {s : String} (h : ∀ c ∈ s.toList, c.toNat < 128) :
    lower (upper s) = lower s := by
  have hlower : (upper s).toLower = s.toLower := by
    apply String.toList_injective
    rw [toList_toLower, toList_toLower, upper, String.toList_ofList,
      List.flatMap_congr fun c hc => upperChar_of_ascii (h c hc), ← List.map_eq_flatMap,
      List.map_map]
    exact List.map_congr_left fun c hc => (toUpper_ascii (h c hc)).2.2
  rw [← lower_toLower (upper s), hlower, lower_toLower]

end OrderTicket.Text
