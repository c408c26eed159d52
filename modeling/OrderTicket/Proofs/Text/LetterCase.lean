import OrderTicket.Proofs.Text.Words

/-!
# Letter case of ASCII and of all letters

`Text.lower` and `Text.upper` are the mappings of Unicode; `String.toLower` changes the letters of
ASCII only. This module shows that the mappings do not see which case a letter of ASCII is in, and
that a text whose two mappings both are of ASCII is of ASCII itself.

* `Text.lower_toLower`, `Text.upper_toLower`: mappings of a text whose letters of ASCII changed
  case.
* `Text.upper_of_lower`: the upper case of a text, from its lower case.
-/

namespace OrderTicket.Text

/-! ## Letters of ASCII change case -/

/-- A character that is no capital of ASCII is not changed. -/
theorem toLower_of_not_isUpper {c : Char} (h : c.isUpper = false) : c.toLower = c := by
  refine dif_neg ?_
  rintro ⟨hA, hZ⟩
  have hupper : c.isUpper = true := decide_eq_true ⟨hA, hZ⟩
  rw [h] at hupper
  cases hupper

/-- What holds of all capital letters and their small ones needs no case distinction elsewhere. -/
theorem congr_toLower {α : Type} [DecidableEq α] {f : Char → α}
    (h : ∀ n : Fin 26, f (Char.ofNat (65 + n)).toLower = f (Char.ofNat (65 + n))) (c : Char) :
    f c.toLower = f c := by
  cases hc : c.isUpper with
  | false => rw [toLower_of_not_isUpper hc]
  | true =>
    obtain ⟨hlow, hhigh⟩ := toNat_of_isUpper hc
    have hletter := h ⟨c.toNat - 65, by omega⟩
    have hcode : 65 + (c.toNat - 65) = c.toNat := by omega
    simpa only [hcode, Char.ofNat_toNat] using hletter

/-- What the mappings see of a character. -/
def view (c : Char) : List Char × List Char × Bool × Bool × Bool :=
  (lowerChar c, upperChar c, isCased c, isCaseIgnorable c, c == 'Σ')

/-- The mappings see nothing of the case of ASCII. -/
theorem view_toLower (c : Char) : view c.toLower = view c :=
  congr_toLower (by decide +kernel) c

theorem lowerChar_toLower (c : Char) : lowerChar c.toLower = lowerChar c :=
  congrArg (·.1) (view_toLower c)

theorem upperChar_toLower (c : Char) : upperChar c.toLower = upperChar c :=
  congrArg (·.2.1) (view_toLower c)

theorem isCased_toLower (c : Char) : isCased c.toLower = isCased c :=
  congrArg (·.2.2.1) (view_toLower c)

theorem isCaseIgnorable_toLower (c : Char) : isCaseIgnorable c.toLower = isCaseIgnorable c :=
  congrArg (·.2.2.2.1) (view_toLower c)

theorem beq_sigma_toLower (c : Char) : (c.toLower == 'Σ') = (c == 'Σ') :=
  congrArg (·.2.2.2.2) (view_toLower c)

/-- Whether characters stand beside one with case does not depend on the case of ASCII. -/
theorem besideCased_toLower (cs : List Char) :
    besideCased (cs.map Char.toLower) = besideCased cs := by
  induction cs with
  | nil => rfl
  | cons c cs ih =>
    simp only [besideCased, List.map_cons, List.dropWhile_cons, isCaseIgnorable_toLower] at ih ⊢
    cases isCaseIgnorable c
    · exact isCased_toLower c
    · exact ih

/-- A sigma sees whether its neighbours have case, and not which one. -/
theorem lowerFrom_toLower (before cs : List Char) :
    lowerFrom (before.map Char.toLower) (cs.map Char.toLower) = lowerFrom before cs := by
  induction cs generalizing before with
  | nil => rfl
  | cons c cs ih =>
    have hrest := ih (c :: before)
    rw [List.map_cons] at hrest
    simp only [List.map_cons, lowerFrom, beq_sigma_toLower, besideCased_toLower, lowerChar_toLower,
      hrest]

@[simp]
theorem toList_toLower (s : String) : s.toLower.toList = s.toList.map Char.toLower :=
  String.toList_map

/-- The lower case of a text does not depend on the case of its letters of ASCII. -/
theorem lower_toLower (s : String) : lower s.toLower = lower s := by
  have h := lowerFrom_toLower [] s.toList
  rw [List.map_nil] at h
  rw [lower, lower, toList_toLower, h]

/-- The upper case of a text does not depend on the case of its letters of ASCII. -/
theorem upper_toLower (s : String) : upper s.toLower = upper s := by
  rw [upper, upper, toList_toLower, List.flatMap_map]
  simp only [upperChar_toLower]

/-! ## Texts of ASCII -/

/-- The runs of the table of lower case lead from ASCII to ASCII and from other characters to other
ones, but for the sign of kelvin. -/
theorem run_of_lowerRuns {run : CaseRun} (h : run ∈ lowerRuns) :
    run.last < 128 ∨ (run.first = 0x212A ∧ run.last = 0x212A) ∨
      (128 ≤ run.first + run.offset ∧
        (run.last + run.offset < 0xD800 ∨
          (0xDFFF < run.first + run.offset ∧ run.last + run.offset < 0x110000))) := by
  have hall : lowerRuns.all (fun run => decide (run.last < 128 ∨
      (run.first = 0x212A ∧ run.last = 0x212A) ∨ (128 ≤ run.first + run.offset ∧
        (run.last + run.offset < 0xD800 ∨
          (0xDFFF < run.first + run.offset ∧ run.last + run.offset < 0x110000))))) = true := by
    decide +kernel
  exact of_decide_eq_true (List.all_eq_true.1 hall run h)

theorem toNat_ofNat_of_isValid {n : Nat} (h : n.isValidChar) : (Char.ofNat n).toNat = n := by
  rw [Char.ofNat, dif_pos h]
  rfl

/-- A character that is not of ASCII has a lower case that is not either, but for the sign of
kelvin. -/
theorem eq_kelvin_of_lowerChar {c : Char} (hc : 128 ≤ c.toNat)
    (h : ∀ d ∈ lowerChar c, d.toNat < 128) : c.toNat = 0x212A := by
  rw [lowerChar, if_neg (by omega), mapCase] at h
  split at h
  · rename_i code image hfind
    -- the only expansion ends in a combining dot
    have hmem := List.mem_of_find?_eq_some hfind
    simp only [lowerExpansions, List.mem_cons, List.not_mem_nil, or_false, Prod.mk.injEq] at hmem
    obtain ⟨-, rfl⟩ := hmem
    exact absurd (h (Char.ofNat 775) (by decide)) (by decide)
  · split at h
    · rename_i run hfind
      have hcovers := List.find?_some hfind
      simp only [CaseRun.covers, Bool.and_eq_true, decide_eq_true_eq] at hcovers
      obtain ⟨⟨hfirst, hlast⟩, -⟩ := hcovers
      rcases run_of_lowerRuns (List.mem_of_find?_eq_some hfind) with hascii | hkelvin | hother
      · omega
      · omega
      · have hvalid : (c.toNat + run.offset).toNat.isValidChar := by
          unfold Nat.isValidChar
          omega
        have hsmall := h _ List.mem_cons_self
        rw [toNat_ofNat_of_isValid hvalid] at hsmall
        omega
    · exact absurd (h c List.mem_cons_self) (by omega)

/-- A character whose upper and lower case are of ASCII is so itself. -/
theorem toNat_lt_of_case {c : Char} (hlower : ∀ d ∈ lowerChar c, d.toNat < 128)
    (hupper : ∀ d ∈ upperChar c, d.toNat < 128) : c.toNat < 128 := by
  refine Nat.lt_of_not_le fun hc => ?_
  have hkelvin := eq_kelvin_of_lowerChar hc hlower
  obtain rfl : c = Char.ofNat 0x212A := by rw [← hkelvin, Char.ofNat_toNat]
  exact absurd (hupper (Char.ofNat 0x212A) (by decide +kernel)) (by decide)

/-- The lower case of a character away from the end of a word is part of that of the text, unless it
is a sigma. -/
theorem mem_lowerFrom {before cs : List Char} (h : ∀ d ∈ lowerFrom before cs, d.toNat < 128) :
    ∀ c ∈ cs, ∀ d ∈ lowerChar c, d.toNat < 128 := by
  induction cs generalizing before with
  | nil => simp
  | cons c cs ih =>
    rw [lowerFrom] at h
    split at h
    · -- both forms of a small sigma are no characters of ASCII
      have hsigma := h _ List.mem_cons_self
      split at hsigma <;> exact absurd hsigma (by decide)
    · intro d hd
      rcases List.mem_cons.1 hd with rfl | hd
      · exact fun e he => h e (List.mem_append_left _ he)
      · exact ih (fun e he => h e (List.mem_append_right _ he)) d hd

/-- A text with lower and upper case in ASCII has the upper case of its lower case. -/
theorem upper_of_lower {s word : String} (hword : lower s = word)
    (hlower : ∀ c ∈ word.toList, c.toNat < 128) (hupper : ∀ c ∈ (upper s).toList, c.toNat < 128) :
    upper s = upper word := by
  have hlist : lowerFrom [] s.toList = word.toList := by rw [← hword, lower, String.toList_ofList]
  have hascii : ∀ c ∈ s.toList, c.toNat < 128 := by
    intro c hc
    refine toNat_lt_of_case (mem_lowerFrom (by rwa [hlist]) c hc) fun d hd => hupper d ?_
    rw [upper, String.toList_ofList]
    exact List.mem_flatMap_of_mem hc hd
  -- on texts of ASCII the mapping is that of the letters of ASCII
  have hplain (before : List Char) {cs : List Char} (hcs : ∀ c ∈ cs, c.toNat < 128) :
      lowerFrom before cs = cs.map Char.toLower := by
    induction cs generalizing before with
    | nil => rfl
    | cons c cs ih =>
      have hc := hcs c List.mem_cons_self
      have hsigma : ¬ (c == 'Σ') = true := by
        intro heq
        rw [beq_iff_eq] at heq
        subst heq
        exact absurd hc (by decide)
      rw [lowerFrom, if_neg hsigma, lowerChar, if_pos hc,
        ih _ fun d hd => hcs d (List.mem_cons_of_mem _ hd)]
      rfl
  have hsmall : s.toLower = .ofList (s.toList.map Char.toLower) :=
    String.toList_injective (by simp)
  rw [← hword, lower, hplain [] hascii, ← hsmall, upper_toLower]

end OrderTicket.Text
