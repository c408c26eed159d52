import OrderTicket.Command.Clause

/-!
# Where clauses come from

This module shows from which words symbol clauses are read, wherever they stand in a command.

* `Clause.isSymbol_of_read`: a symbol clause is a word in upper case.
* `Clause.read_of_symbol`: the same word is read as a symbol elsewhere.
* `Clause.limitWord_of_read`: a limit clause without a price is a keyword by itself.
* `Clause.exists_of_symbol_mem`: the symbol clauses of a command come from its words.
-/

namespace OrderTicket.Command.Clause

/-- A protection in one word is nothing else. -/
theorem protection?_eq_some {cs : List Char} {clause : Clause} (h : protection? cs = some clause) :
    ∃ kind number, clause = protection kind number := by
  obtain ⟨kind, -, hkind⟩ := List.exists_of_findSome?_eq_some h
  obtain ⟨number, -, rfl⟩ := Option.map_eq_some_iff.1 hkind
  exact ⟨kind, number, rfl⟩

/-- A word that is read as a symbol is one in upper case. -/
theorem isSymbol_of_read {raw word : String} {behind : List String}
    (h : (read raw behind).1 = symbol word) : isSymbol word = true ∧ word = Text.upper raw := by
  simp only [read] at h
  split at h
  · cases h
  split at h
  · cases h
  split at h
  · split at h <;> cases h
  split at h
  · cases h
  split at h
  · split at h <;> cases h
  split at h
  · cases h
  split at h
  · -- a protection keyword with or without its value
    unfold protectionValue at h
    split at h
    · cases h
    · split at h <;> cases h
  split at h
  · rename_i clause hclause
    obtain ⟨kind, number, rfl⟩ := protection?_eq_some hclause
    cases h
  · unfold readValue at h
    simp only at h
    split at h
    · cases h
    · split at h <;> cases h
    · split at h
      · cases h
      · split at h
        · cases h
          exact ⟨‹_›, rfl⟩
        · cases h

/-- A limit clause without a price is a keyword by itself. -/
theorem limitWord_of_read {raw : String} {behind : List String}
    (h : (read raw behind).1 = limit none) :
    Text.lower raw ∈ limitWords ∧ (read raw behind).2 = 0 := by
  simp only [read] at h ⊢
  by_cases hreduce : reduceWords.contains (Text.lower raw) = true
  · rw [if_pos hreduce] at h
    cases h
  rw [if_neg hreduce] at h ⊢
  by_cases hmarket : marketWords.contains (Text.lower raw) = true
  · rw [if_pos hmarket] at h
    cases h
  rw [if_neg hmarket] at h ⊢
  by_cases hlimit : limitWords.contains (Text.lower raw) = true
  · rw [if_pos hlimit] at h ⊢
    refine ⟨by simpa using hlimit, ?_⟩
    split at h
    · cases h
    · rfl
  -- no rule behind the one for limit prices gives a limit clause
  exfalso
  rw [if_neg hlimit] at h
  split at h
  · cases h
  split at h
  · split at h <;> cases h
  split at h
  · cases h
  split at h
  · unfold protectionValue at h
    split at h
    · cases h
    · split at h <;> cases h
  split at h
  · rename_i clause hclause
    obtain ⟨kind, number, rfl⟩ := protection?_eq_some hclause
    cases h
  · unfold readValue at h
    simp only at h
    split at h
    · cases h
    · split at h <;> cases h
    · split at h
      · cases h
      · split at h <;> cases h

/-- A word that is read as a symbol somewhere is read as one wherever it makes no keyword of two
words with the next one. Only its two letter cases matter. -/
theorem read_of_symbol {raw other word : String} {behind rest : List String}
    (h : (read raw behind).1 = symbol word) (hlower : Text.lower other = Text.lower raw)
    (hupper : Text.upper other = Text.upper raw)
    (hkeyword : protectionKeyword? (Text.lower raw) (rest.head?.map Text.lower) = none) :
    read other rest = (symbol word, 0) := by
  simp only [read, hlower, hkeyword] at h ⊢
  -- the rules in turn: each of them would give another clause
  by_cases hreduce : reduceWords.contains (Text.lower raw) = true
  · rw [if_pos hreduce] at h
    cases h
  rw [if_neg hreduce] at h ⊢
  by_cases hmarket : marketWords.contains (Text.lower raw) = true
  · rw [if_pos hmarket] at h
    cases h
  rw [if_neg hmarket] at h ⊢
  by_cases hlimit : limitWords.contains (Text.lower raw) = true
  · rw [if_pos hlimit] at h
    split at h <;> cases h
  rw [if_neg hlimit] at h ⊢
  cases hprice : atPrice? (Text.lower raw).toList with
  | some price => simp [hprice] at h
  | none =>
    simp only [hprice] at h ⊢
    by_cases hlever : leverageWords.contains (Text.lower raw) = true
    · rw [if_pos hlever] at h
      split at h <;> cases h
    rw [if_neg hlever] at h ⊢
    cases hone : leverage? (Text.lower raw).toList with
    | some number => simp [hone] at h
    | none =>
      simp only [hone] at h ⊢
      split at h
      · -- a protection keyword with or without its value
        unfold protectionValue at h
        split at h
        · cases h
        · split at h <;> cases h
      cases hword : protection? (Text.lower raw).toList with
      | some clause =>
        obtain ⟨kind, number, rfl⟩ := protection?_eq_some hword
        simp [hword] at h
      | none =>
        simp only [hword, readValue, hlower] at h ⊢
        -- what is no size has no use for the next word
        cases hsize : size? (Text.lower raw).toList with
        | some found =>
          obtain ⟨number, unit⟩ := found
          cases unit with
          | some unit => simp [hsize] at h
          | none =>
            simp only [hsize] at h
            split at h <;> cases h
        | none =>
          simp only [hsize, hupper] at h ⊢
          by_cases hfinite : notFiniteWords.contains (Text.lower raw) = true
          · rw [if_pos hfinite] at h
            cases h
          rw [if_neg hfinite] at h ⊢
          by_cases hsymbol : isSymbol (Text.upper raw) = true
          · rw [if_pos hsymbol] at h ⊢
            cases h
            rfl
          · rw [if_neg hsymbol] at h
            cases h

/-- A limit keyword is read as one, with or without a price. -/
theorem exists_limit_of_read {raw : String} (h : Text.lower raw ∈ limitWords)
    (behind : List String) : ∃ price, (read raw behind).1 = limit price := by
  have hearlier : limitWords.all (fun word =>
      !reduceWords.contains word && !marketWords.contains word) = true := by decide +kernel
  have hnone := List.all_eq_true.1 hearlier _ h
  simp only [Bool.and_eq_true, Bool.not_eq_true'] at hnone
  simp only [read, hnone.1, hnone.2, Bool.false_eq_true, if_false]
  rw [if_pos (by simpa using h)]
  split
  · exact ⟨_, rfl⟩
  · exact ⟨none, rfl⟩

/-- Each clause of a list of words is read from one of the words and the words behind it. -/
theorem exists_read_of_mem {words : List String} {clause : Clause} (h : clause ∈ readAll words) :
    ∃ front raw behind, words = front ++ raw :: behind ∧ (read raw behind).1 = clause := by
  -- by strong induction, since a clause may own some of the words behind it
  induction hn : words.length using Nat.strongRecOn generalizing words with
  | _ n ih =>
    cases words with
    | nil => simp at h
    | cons raw rest =>
      rw [readAll_cons, List.mem_cons] at h
      rcases h with h | h
      · exact ⟨[], raw, rest, rfl, h.symm⟩
      · have hlt : (rest.drop (read raw rest).2).length < n := by
          rw [← hn, List.length_drop, List.length_cons]
          omega
        obtain ⟨front, raw', behind, hwords, hread⟩ := ih _ hlt h rfl
        refine ⟨raw :: (rest.take (read raw rest).2 ++ front), raw', behind, ?_, hread⟩
        rw [List.cons_append, List.append_assoc, ← hwords, List.take_append_drop]

/-- The clauses of a list of words: the symbols among them are words in upper case. -/
theorem exists_of_symbol_mem {words : List String} {word : String}
    (h : symbol word ∈ readAll words) :
    isSymbol word = true ∧ ∃ raw ∈ words, word = Text.upper raw := by
  obtain ⟨front, raw, behind, rfl, hread⟩ := exists_read_of_mem h
  obtain ⟨hsymbol, hword⟩ := isSymbol_of_read hread
  exact ⟨hsymbol, raw, by simp, hword⟩

end OrderTicket.Command.Clause
