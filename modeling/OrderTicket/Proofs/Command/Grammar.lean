import Mathlib.Tactic.SplitIfs
import OrderTicket.Command.Clause
import OrderTicket.Proofs.Command.Number

/-!
# The grammar of clauses

This module says which words a clause may be written as, and shows that these are the words from
which it is read. Keywords and marks are in lower case; the words of a command are compared with
them after they were brought to lower case.

* `Clause.Spells`: the spellings of a clause. A symbol has none of its own: it is what no other rule
  claims.
* `Clause.spells_of_read`: what is read as a clause is a spelling of it.
* `Clause.read_of_spells`: a spelling of a clause is read as that clause, whatever follows; only a
  size without a mark needs to know that the next word is none.
-/

namespace OrderTicket.Command

/-- The keywords of a protection that are two words. -/
def Protection.pairs : Protection → List (String × String)
  | stopLoss => [("stop", "loss")]
  | takeProfit => [("take", "profit")]
  | trailing => []

namespace Clause

/-- The marks that a unit may have behind an amount. -/
def marks : SizeUnit → List String
  | .base => [""]
  | .quote => quoteUnits
  | .percent => ["%"]

/-- The spellings of a clause. -/
inductive Spells : Clause → List String → Prop
  | reduce {word : String} (hword : word ∈ reduceWords) : Spells reduce [word]
  | market {word : String} (hword : word ∈ marketWords) : Spells market [word]
  | limit {word number : String} (hword : word ∈ limitWords) (hnumber : IsNumber number) :
    Spells (limit (some number)) [word, number]
  | atPrice {number : String} (hnumber : IsNumber number) :
    Spells (atPrice number) ["@" ++ number]
  | leverageWord {word number : String} (hword : word ∈ leverageWords)
      (hnumber : IsNumber number) : Spells (leverage number) [word, number]
  | leverageBehind {number : String} (hnumber : IsNumber number) :
    Spells (leverage number) ["x" ++ number]
  | leverageBefore {number : String} (hnumber : IsNumber number) :
    Spells (leverage number) [number ++ "x"]
  | protectionWord {kind : Protection} {word value number : String}
      (hword : word ∈ kind.keywords) (hvalue : IsPercentage value number) :
    Spells (protection kind number) [word ++ value]
  | protectionValue {kind : Protection} {word value number : String}
      (hword : word ∈ kind.keywords) (hvalue : IsPercentage value number) :
    Spells (protection kind number) [word, value]
  | protectionPair {kind : Protection} {first second value number : String}
      (hpair : (first, second) ∈ kind.pairs) (hvalue : IsPercentage value number) :
    Spells (protection kind number) [first, second, value]
  | size {unit : SizeUnit} {mark number : String} (hmark : mark ∈ marks unit)
      (hnumber : IsNumber number) : Spells (size number unit) [number ++ mark]
  | sizeMark {mark number : String} (hmark : mark ∈ quoteUnits) (hnumber : IsNumber number) :
    Spells (size number .quote) [number, mark]

/-- Whether a clause is a term of an order other than its symbol, and complete. -/
def isTerm : Clause → Bool
  | reduce | market | limit (some _) | atPrice _ | leverage _ | protection .. | size .. => true
  | _ => false

/-! ## What is read is a spelling -/

/-- A number that is found in the next word is the next word. -/
theorem exists_next_of_number? {behind : List String} {number : String}
    (h : (behind.head?.map Text.lower).bind (number? ·.toList) = some number) :
    IsNumber number ∧ ∃ word rest, behind = word :: rest ∧ Text.lower word = number := by
  cases behind with
  | nil => cases h
  | cons word rest =>
    rw [List.head?_cons, Option.map_some, Option.bind_some] at h
    obtain ⟨hnumber, hword⟩ := number?_eq_some h
    exact ⟨hnumber, word, rest, rfl, String.toList_injective hword⟩

/-- A word that gives a price behind an at sign is that sign in front of a number. -/
theorem atPrice?_eq_some {word number : String} (h : atPrice? word.toList = some number) :
    IsNumber number ∧ word = "@" ++ number := by
  unfold atPrice? at h
  split at h
  · rename_i rest hword
    obtain ⟨hnumber, rfl⟩ := number?_eq_some h
    exact ⟨hnumber, String.toList_injective (by simpa using hword)⟩
  · cases h

/-- A word that gives a leverage is a number with an x in front of it or behind it. -/
theorem leverage?_eq_some {word number : String} (h : leverage? word.toList = some number) :
    IsNumber number ∧ (word = "x" ++ number ∨ word = number ++ "x") := by
  unfold leverage? at h
  split at h
  · rename_i rest hword
    obtain ⟨hnumber, rfl⟩ := number?_eq_some h
    exact ⟨hnumber, .inl (String.toList_injective (by simpa using hword))⟩
  · obtain ⟨hnumber, mark, hmark, hword⟩ := numberBefore?_eq_some h
    obtain rfl : mark = ['x'] := by simpa using hmark
    exact ⟨hnumber, .inr (String.toList_injective (by simpa using hword))⟩

/-- A protection keyword is one word, or two words with the next one. -/
theorem protectionKeyword?_eq_some {word : String} {next : Option String} {kind : Protection}
    {taken : Nat} (h : protectionKeyword? word next = some (kind, taken)) :
    (taken = 1 ∧ word ∈ kind.keywords) ∨
      (taken = 2 ∧ ∃ second, next = some second ∧ (word, second) ∈ kind.pairs) := by
  unfold protectionKeyword? at h
  split_ifs at h with hstop htake hword hword hword
  · cases h
    simp only [Bool.and_eq_true, beq_iff_eq] at hstop
    exact .inr ⟨rfl, "loss", hstop.2, by simp [Protection.pairs, hstop.1]⟩
  · cases h
    simp only [Bool.and_eq_true, beq_iff_eq] at htake
    exact .inr ⟨rfl, "profit", htake.2, by simp [Protection.pairs, htake.1]⟩
  all_goals
    cases h
    exact .inl ⟨rfl, by simpa using hword⟩

/-- A protection that is found in one word is a keyword with a percentage behind it. -/
theorem spells_of_protection? {word : String} {clause : Clause}
    (h : protection? word.toList = some clause) : Spells clause [word] := by
  obtain ⟨kind, -, hkind⟩ := List.exists_of_findSome?_eq_some h
  obtain ⟨number, hnumber, rfl⟩ := Option.map_eq_some_iff.1 hkind
  obtain ⟨keyword, hkeyword, hafter⟩ := List.exists_of_findSome?_eq_some hnumber
  obtain ⟨value, hvalue, hpercentage⟩ := Option.bind_eq_some_iff.1 hafter
  unfold afterKeyword? at hvalue
  split at hvalue
  · rename_i hfront
    obtain ⟨rest, hrest⟩ := List.isPrefixOf_iff_prefix.1 hfront
    obtain rfl : rest = value := by
      rw [← hrest, ← String.length_toList, List.drop_left] at hvalue
      exact Option.some.inj hvalue
    have hword : word = keyword ++ .ofList rest := String.toList_injective (by simp [hrest])
    rw [hword]
    exact .protectionWord hkeyword (percentage?_eq_some_iff.1 (by simpa using hpercentage))
  · cases hvalue

/-- A word that gives a size is a number, perhaps with a mark of its unit behind it. -/
theorem size?_eq_some {word number : String} {unit : Option SizeUnit}
    (h : size? word.toList = some (number, unit)) :
    IsNumber number ∧ (unit = none ∧ word = number ∨
      ∃ known mark, unit = some known ∧ mark ∈ marks known ∧ word = number ++ mark) := by
  unfold size? at h
  split at h
  · cases h
  · rename_i digits rest hsplit
    have hnumber := isNumber_of_splitNumber? hsplit
    have hword : word = .ofList digits ++ .ofList rest :=
      String.toList_injective (by simp [splitNumber?_append hsplit])
    simp only at h
    split_ifs at h with hempty hpercent hquote <;> cases h
    · refine ⟨hnumber, .inl ⟨rfl, ?_⟩⟩
      rw [hword, List.isEmpty_iff.1 hempty]
      simp
    · refine ⟨hnumber, .inr ⟨.percent, .ofList rest, rfl, ?_, hword⟩⟩
      simpa [marks] using hpercent
    · refine ⟨hnumber, .inr ⟨.quote, .ofList rest, rfl, ?_, hword⟩⟩
      simpa [marks] using hquote

/-- What is read as a term of an order is a spelling of it. -/
theorem spells_of_read {raw : String} {behind : List String} {clause : Clause} {owned : Nat}
    (h : read raw behind = (clause, owned)) (hterm : clause.isTerm = true) :
    Spells clause ((raw :: behind.take owned).map Text.lower) := by
  simp only [read] at h
  split at h
  · cases h
    exact .reduce (by simpa using ‹reduceWords.contains _ = true›)
  split at h
  · cases h
    exact .market (by simpa using ‹marketWords.contains _ = true›)
  split at h
  · rename_i hword
    split at h
    · rename_i price hprice
      cases h
      obtain ⟨hnumber, next, rest, rfl, rfl⟩ := exists_next_of_number? hprice
      exact .limit (by simpa using hword) hnumber
    · cases h
      cases hterm
  split at h
  · rename_i price hprice
    cases h
    obtain ⟨hnumber, hword⟩ := atPrice?_eq_some hprice
    rw [List.take_zero, List.map_singleton, hword]
    exact .atPrice hnumber
  split at h
  · rename_i hword
    split at h
    · rename_i number hnext
      cases h
      obtain ⟨hnumber, next, rest, rfl, rfl⟩ := exists_next_of_number? hnext
      exact .leverageWord (by simpa using hword) hnumber
    · cases h
      cases hterm
  split at h
  · rename_i number hleverage
    cases h
    obtain ⟨hnumber, hword | hword⟩ := leverage?_eq_some hleverage
    · rw [List.take_zero, List.map_singleton, hword]
      exact .leverageBehind hnumber
    · rw [List.take_zero, List.map_singleton, hword]
      exact .leverageBefore hnumber
  split at h
  · rename_i kind taken hkeyword
    -- the value stands behind the one or two words of the keyword
    unfold Clause.protectionValue at h
    split at h
    · cases h
      cases hterm
    · rename_i value hvalue
      split at h
      · rename_i number hnumber
        cases h
        have hpercentage := percentage?_eq_some_iff.1 hnumber
        rcases protectionKeyword?_eq_some hkeyword with ⟨rfl, hword⟩ | ⟨rfl, second, hnext, hpair⟩
        · obtain ⟨rest, rfl⟩ : ∃ rest, behind = value :: rest := by
            cases behind with
            | nil => cases hvalue
            | cons word rest => exact ⟨rest, by simpa using hvalue⟩
          exact .protectionValue hword hpercentage
        · obtain ⟨word, rest, rfl, rfl⟩ : ∃ word rest, behind = word :: value :: rest ∧
              Text.lower word = second := by
            rcases behind with _ | ⟨word, _ | ⟨other, rest⟩⟩
            · simp at hvalue
            · simp at hvalue
            · exact ⟨word, rest, by simpa using hvalue, by simpa using hnext⟩
          exact .protectionPair hpair hpercentage
      · cases h
        cases hterm
  split at h
  · cases h
    exact spells_of_protection? ‹protection? _ = some _›
  · unfold readValue at h
    simp only at h
    split at h
    · rename_i number unit hsize
      cases h
      obtain ⟨hnumber, ⟨hnone, -⟩ | ⟨known, mark, hknown, hmark, hword⟩⟩ := size?_eq_some hsize
      · cases hnone
      · cases hknown
        rw [List.take_zero, List.map_singleton, hword]
        exact .size hmark hnumber
    · rename_i number hsize
      obtain ⟨hnumber, ⟨-, hword⟩ | ⟨known, mark, hknown, -, -⟩⟩ := size?_eq_some hsize
      · split at h
        · rename_i hunit
          cases h
          cases behind with
          | nil => cases hunit
          | cons next rest =>
            rw [List.take_succ_cons, List.take_zero, List.map_cons, List.map_singleton, hword]
            exact .sizeMark (by simpa using hunit) hnumber
        · cases h
          have hspelled : Spells (.size number .base) [number ++ ""] :=
            .size (by simp [marks]) hnumber
          rw [String.append_empty] at hspelled
          rwa [List.take_zero, List.map_singleton, hword]
      · cases hknown
    · split_ifs at h <;> (cases h; cases hterm)

/-! ## Spellings are read -/

/-- The word has a digit, which no keyword has. -/
def HasDigit (word : String) : Prop :=
  ∃ c ∈ word.toList, Text.isDigit c = true

/-- A word with a digit is none of some words without digits. -/
theorem contains_of_hasDigit {words : List String} {word : String}
    (hwords : words.all (fun w => w.toList.all fun c => !Text.isDigit c) = true)
    (h : HasDigit word) : words.contains word = false := by
  obtain ⟨c, hc, hdigit⟩ := h
  rw [Bool.eq_false_iff]
  intro hmem
  have hall := List.all_eq_true.1 hwords word (by simpa using hmem)
  have hnone := List.all_eq_true.1 hall c hc
  simp [hdigit] at hnone

/-- A word with a digit is no keyword of a protection. -/
theorem protectionKeyword?_of_hasDigit {word : String} (h : HasDigit word)
    (next : Option String) : protectionKeyword? word next = none := by
  have hpair : ["stop", "take"].contains word = false :=
    contains_of_hasDigit (by decide) h
  have hkind (kind : Protection) : kind.keywords.contains word = false := by
    cases kind <;> exact contains_of_hasDigit (by decide) h
  simp only [List.contains_eq_mem, List.mem_cons, List.not_mem_nil, or_false,
    decide_eq_false_iff_not, not_or] at hpair
  simp only [protectionKeyword?, hkind, beq_eq_false_iff_ne.2 hpair.1,
    beq_eq_false_iff_ne.2 hpair.2, Bool.false_and, Bool.false_eq_true, if_false]

/-- A word with a digit is no keyword, so only the rules for a price, a leverage and a protection in
one word come before its value is read. -/
theorem read_of_hasDigit {raw : String} (h : HasDigit (Text.lower raw)) (behind : List String) :
    read raw behind =
      match atPrice? (Text.lower raw).toList with
      | some price => (atPrice price, 0)
      | none =>
        match leverage? (Text.lower raw).toList with
        | some number => (leverage number, 0)
        | none =>
          match protection? (Text.lower raw).toList with
          | some clause => (clause, 0)
          | none => readValue raw (behind.head?.map Text.lower) := by
  have hreduce : reduceWords.contains (Text.lower raw) = false :=
    contains_of_hasDigit (by decide) h
  have hmarket : marketWords.contains (Text.lower raw) = false :=
    contains_of_hasDigit (by decide) h
  have hlimit : limitWords.contains (Text.lower raw) = false :=
    contains_of_hasDigit (by decide) h
  have hleverage : leverageWords.contains (Text.lower raw) = false :=
    contains_of_hasDigit (by decide) h
  -- the rules of a keyword fall away, and the others ask the same of the word on both sides
  cases hprice : atPrice? (Text.lower raw).toList <;>
    cases hnumber : leverage? (Text.lower raw).toList <;>
    cases hclause : protection? (Text.lower raw).toList <;>
    simp only [read, hreduce, hmarket, hlimit, hleverage, protectionKeyword?_of_hasDigit h, hprice,
      hnumber, hclause, Bool.false_eq_true, if_false]

/-- A word that does not start with `@` is no price. -/
theorem atPrice?_of_ne {c : Char} {cs : List Char} (hc : c ≠ '@') : atPrice? (c :: cs) = none := by
  unfold atPrice?
  split
  · rename_i heq
    cases heq
    exact absurd rfl hc
  · rfl

/-- A word that starts with neither `x` nor a number is no leverage. -/
theorem leverage?_of_ne {c : Char} {cs : List Char} (hc : c ≠ 'x') :
    leverage? (c :: cs) = numberBefore? [['x']] (c :: cs) := by
  unfold leverage?
  split
  · rename_i heq
    cases heq
    exact absurd rfl hc
  · rfl

/-- A word that starts with another character than all of some keywords is no protection of them. -/
theorem protection?_of_ne {c : Char} {cs : List Char} (hs : c ≠ 's') (ht : c ≠ 't') :
    protection? (c :: cs) = none := by
  have hkind (kind : Protection) : percentageAfter? kind.keywords (c :: cs) = none := by
    rw [percentageAfter?, List.findSome?_eq_none_iff]
    intro keyword hkeyword
    have hfront : keyword.toList.isPrefixOf (c :: cs) = false := by
      cases kind <;>
        simp only [Protection.keywords, List.mem_cons, List.not_mem_nil, or_false] at hkeyword <;>
        rcases hkeyword with rfl | rfl <;> simp [List.isPrefixOf, hs.symm, ht.symm]
    simp [afterKeyword?, hfront]
  rw [protection?, List.findSome?_eq_none_iff]
  intro kind _
  rw [hkind, Option.map_none]

/-- A percentage behind a keyword is found. -/
theorem percentageAfter?_append {kind : Protection} {word value number : String}
    (hword : word ∈ kind.keywords) (hvalue : IsPercentage value number) :
    percentageAfter? kind.keywords (word.toList ++ value.toList) = some number := by
  have hread := percentage?_eq_some_iff.2 hvalue
  obtain ⟨c, cs, hcs, hc⟩ := hvalue.exists_toList_eq_cons
  -- a keyword leaves what stands behind it
  have hafter (keyword : String) :
      afterKeyword? keyword (keyword.toList ++ value.toList) = some value.toList := by
    rw [afterKeyword?, if_pos (by simp), ← String.length_toList, List.drop_left]
  have hfirst (others : List String) :
      (word :: others).findSome? (fun keyword =>
        (afterKeyword? keyword (word.toList ++ value.toList)).bind percentage?) = some number := by
    rw [List.findSome?_cons, hafter, Option.bind_some, hread]
  -- the short keyword is tried before the long one, which it may be a part of
  have hsecond {short : String}
      (hshort : (afterKeyword? short (word.toList ++ value.toList)).bind percentage? = none) :
      [short, word].findSome? (fun keyword =>
        (afterKeyword? keyword (word.toList ++ value.toList)).bind percentage?) = some number := by
    rw [List.findSome?_cons, hshort]
    exact hfirst []
  cases kind <;>
    simp only [Protection.keywords, List.mem_cons, List.not_mem_nil, or_false] at hword <;>
    rcases hword with rfl | rfl
  · exact hfirst _
  · exact hsecond rfl
  · exact hfirst _
  · exact hsecond rfl
  · exact hfirst _
  · exact hsecond rfl

/-- A percentage behind a keyword of a protection is that protection. -/
theorem protection?_append {kind : Protection} {word value number : String}
    (hword : word ∈ kind.keywords) (hvalue : IsPercentage value number) :
    protection? (word.toList ++ value.toList) = some (protection kind number) := by
  have hown := percentageAfter?_append hword hvalue
  -- no keyword of another protection stands at the front
  have hother {other : Protection} (hne : other ≠ kind) :
      percentageAfter? other.keywords (word.toList ++ value.toList) = none := by
    rw [percentageAfter?, List.findSome?_eq_none_iff]
    intro keyword hkeyword
    have hfront : keyword.toList.isPrefixOf (word.toList ++ value.toList) = false := by
      cases kind <;> cases other <;> first
        | exact absurd rfl hne
        | simp only [Protection.keywords, List.mem_cons, List.not_mem_nil, or_false]
            at hword hkeyword
          rcases hword with rfl | rfl <;> rcases hkeyword with rfl | rfl <;> rfl
    simp [afterKeyword?, hfront]
  cases kind with
  | stopLoss => simp only [protection?, List.findSome?_cons, hown, Option.map_some]
  | takeProfit =>
    have hstop :
        percentageAfter? Protection.stopLoss.keywords (word.toList ++ value.toList) = none :=
      hother (by decide)
    simp only [protection?, List.findSome?_cons, hstop, hown, Option.map_some, Option.map_none]
  | trailing =>
    have hstop :
        percentageAfter? Protection.stopLoss.keywords (word.toList ++ value.toList) = none :=
      hother (by decide)
    have htake :
        percentageAfter? Protection.takeProfit.keywords (word.toList ++ value.toList) = none :=
      hother (by decide)
    simp only [protection?, List.findSome?_cons, hstop, htake, hown, Option.map_some,
      Option.map_none]

/-- The words that a protection keyword may start with. -/
def protectionHeads : List String :=
  ["stop", "take", "sl", "stoploss", "tp", "takeprofit", "trail", "trailing"]

theorem keywords_subset (kind : Protection) : kind.keywords ⊆ protectionHeads := by
  cases kind <;> decide

/-- The first word of a keyword of two can stand at the front of a protection. -/
theorem mem_protectionHeads_of_pair {kind : Protection} {first second : String}
    (h : (first, second) ∈ kind.pairs) : first ∈ protectionHeads := by
  cases kind <;> simp_all [Protection.pairs, protectionHeads]

/-- A protection keyword is read as one: no earlier rule claims it. -/
theorem read_of_protectionKeyword? {raw : String} {behind : List String} {kind : Protection}
    {taken : Nat}
    (h : protectionKeyword? (Text.lower raw) (behind.head?.map Text.lower) = some (kind, taken)) :
    read raw behind = Clause.protectionValue kind taken behind := by
  have hword : Text.lower raw ∈ protectionHeads := by
    rcases protectionKeyword?_eq_some h with ⟨-, hword⟩ | ⟨-, second, -, hpair⟩
    · exact keywords_subset kind hword
    · exact mem_protectionHeads_of_pair hpair
  have hearlier : protectionHeads.all (fun word =>
      !reduceWords.contains word && !marketWords.contains word && !limitWords.contains word &&
        !leverageWords.contains word && (atPrice? word.toList).isNone &&
        (leverage? word.toList).isNone) = true := by decide
  have hnone := List.all_eq_true.1 hearlier _ hword
  simp only [Bool.and_eq_true, Bool.not_eq_true', Option.isNone_iff_eq_none] at hnone
  obtain ⟨⟨⟨⟨⟨hreduce, hmarket⟩, hlimit⟩, hleverage⟩, hprice⟩, hnumber⟩ := hnone
  simp only [read, hreduce, hmarket, hlimit, hleverage, hprice, hnumber, h, Bool.false_eq_true,
    if_false]

/-- A word that is read as a symbol is no protection keyword. -/
theorem protectionKeyword?_of_symbol {raw word : String} {behind : List String}
    (h : (read raw behind).1 = symbol word) :
    protectionKeyword? (Text.lower raw) (behind.head?.map Text.lower) = none := by
  cases hkeyword : protectionKeyword? (Text.lower raw) (behind.head?.map Text.lower) with
  | none => rfl
  | some found =>
    rw [read_of_protectionKeyword? hkeyword, Clause.protectionValue] at h
    split at h
    · cases h
    · split at h <;> cases h

/-- A keyword of one word is recognised, whatever follows it. -/
theorem protectionKeyword?_of_mem {kind : Protection} {word : String} (h : word ∈ kind.keywords)
    (next : Option String) : protectionKeyword? word next = some (kind, 1) := by
  cases kind <;>
    simp only [Protection.keywords, List.mem_cons, List.not_mem_nil, or_false] at h <;>
    rcases h with rfl | rfl <;> simp [protectionKeyword?, Protection.keywords]

/-- A keyword of two words is recognised. -/
theorem protectionKeyword?_of_pair {kind : Protection} {first second : String}
    (h : (first, second) ∈ kind.pairs) :
    protectionKeyword? first (some second) = some (kind, 2) := by
  cases kind <;>
    simp only [Protection.pairs, List.mem_cons, List.not_mem_nil, or_false, Prod.mk.injEq] at h
  all_goals
    obtain ⟨rfl, rfl⟩ := h
    simp [protectionKeyword?]

/-- A number with a mark behind it is neither a price, nor a leverage, nor a protection. -/
theorem read_of_number {raw number mark : String} (hlow : Text.lower raw = number ++ mark)
    (hnumber : IsNumber number) (hends : EndsNumber mark.toList) (hmark : mark ≠ "x")
    (behind : List String) :
    read raw behind = readValue raw (behind.head?.map Text.lower) ∧
      splitNumber? (Text.lower raw).toList = some (number.toList, mark.toList) := by
  have hsplit : splitNumber? (Text.lower raw).toList = some (number.toList, mark.toList) := by
    rw [hlow, String.toList_append]
    exact hnumber.splitNumber?_append hends
  have hdigit : HasDigit (Text.lower raw) := by
    obtain ⟨c, hc, hdigit⟩ := hnumber.exists_isDigit
    exact ⟨c, by simp [hlow, hc], hdigit⟩
  obtain ⟨c, cs, hcs, hc⟩ := hnumber.exists_toList_eq_cons
  have hcons : (Text.lower raw).toList = c :: (cs ++ mark.toList) := by
    rw [hlow, String.toList_append, hcs, List.cons_append]
  -- no rule for a word around a number asks for the character that a number starts with
  have hne : c ≠ '@' ∧ c ≠ 'x' ∧ c ≠ 's' ∧ c ≠ 't' := by
    refine ⟨?_, ?_, ?_, ?_⟩ <;>
    · rintro rfl
      revert hc
      decide
  obtain ⟨hat, hx, hs, ht⟩ := hne
  have hleverage : leverage? (Text.lower raw).toList = none := by
    have hother : ¬ mark.toList = ['x'] := fun heq => hmark (String.toList_injective heq)
    rw [hcons, leverage?_of_ne hx, ← hcons, numberBefore?, hsplit]
    simp [hother]
  refine ⟨?_, hsplit⟩
  rw [read_of_hasDigit hdigit, hleverage, hcons, atPrice?_of_ne hat, protection?_of_ne hs ht]

/-- The marks of units end a number, and none of them is that of a leverage. -/
theorem endsNumber_of_mem_marks {unit : SizeUnit} {mark : String} (h : mark ∈ marks unit) :
    EndsNumber mark.toList ∧ mark ≠ "x" := by
  have hall : (marks .base ++ marks .quote ++ marks .percent).all (fun mark =>
      (mark.toList.head?.all fun c => !Text.isDigit c && c != '.') && mark != "x") = true := by
    decide
  have hmem : mark ∈ marks .base ++ marks .quote ++ marks .percent := by
    cases unit <;> simp [h]
  have hmark := List.all_eq_true.1 hall mark hmem
  simp only [Bool.and_eq_true, bne_iff_ne, ne_eq] at hmark
  refine ⟨fun c hc => ?_, hmark.2⟩
  rw [hc] at hmark
  simpa using hmark.1

/-- A number with the mark of a unit is a size. Without a mark the next word must not be one. -/
theorem read_size_of_marks {raw number mark : String} {unit : SizeUnit} {behind : List String}
    (hlow : Text.lower raw = number ++ mark) (hnumber : IsNumber number) (hmark : mark ∈ marks unit)
    (hunit : unit = .base → (behind.head?.map Text.lower).any quoteUnits.contains = false) :
    read raw behind = (size number unit, 0) := by
  obtain ⟨hends, hx⟩ := endsNumber_of_mem_marks hmark
  obtain ⟨hread, hsplit⟩ := read_of_number hlow hnumber hends hx behind
  rw [hread]
  simp only [readValue, size?, hsplit]
  -- the marks of different units do not overlap, so the unit is read back from its mark
  cases unit with
  | base =>
    obtain rfl : mark = "" := by simpa [marks] using hmark
    simp [hunit rfl]
  | percent =>
    obtain rfl : mark = "%" := by simpa [marks] using hmark
    simp
  | quote =>
    have hmem : mark ∈ quoteUnits := hmark
    have hne : mark.toList ≠ [] ∧ mark ≠ "%" := by
      constructor <;>
      · intro heq
        simp_all [quoteUnits]
    simp [hmem, hne.1, hne.2]

/-! ### Rule by rule -/

section Rules

variable {raw number : String}

/-- A word for a smaller position is read as such. -/
theorem read_of_mem_reduceWords (h : Text.lower raw ∈ reduceWords) (behind : List String) :
    read raw behind = (reduce, 0) := by
  simp only [read]
  rw [if_pos (by simpa using h)]

/-- A word for a market order is read as such. -/
theorem read_of_mem_marketWords (h : Text.lower raw ∈ marketWords) (behind : List String) :
    read raw behind = (market, 0) := by
  have hearlier : marketWords.all (fun word => !reduceWords.contains word) = true := by
    decide
  have hnone := List.all_eq_true.1 hearlier _ h
  simp only [read]
  rw [if_neg (by simpa using hnone), if_pos (by simpa using h)]

/-- A word for a limit order with a number behind it is read with that price. -/
theorem read_of_mem_limitWords {next : String} (h : Text.lower raw ∈ limitWords)
    (hnumber : IsNumber (Text.lower next)) (rest : List String) :
    read raw (next :: rest) = (limit (some (Text.lower next)), 1) := by
  have hearlier : limitWords.all (fun word =>
      !reduceWords.contains word && !marketWords.contains word) = true := by decide
  have hnone := List.all_eq_true.1 hearlier _ h
  simp only [Bool.and_eq_true, Bool.not_eq_true'] at hnone
  simp only [read, hnone.1, hnone.2, List.head?_cons, Option.map_some, Option.bind_some,
    hnumber.number?_toList, Bool.false_eq_true, if_false]
  rw [if_pos (by simpa using h)]

/-- A word for a leverage with a number behind it is read with that leverage. -/
theorem read_of_mem_leverageWords {next : String} (h : Text.lower raw ∈ leverageWords)
    (hnumber : IsNumber (Text.lower next)) (rest : List String) :
    read raw (next :: rest) = (leverage (Text.lower next), 1) := by
  have hearlier : leverageWords.all (fun word => !reduceWords.contains word &&
      !marketWords.contains word && !limitWords.contains word &&
        (atPrice? word.toList).isNone) = true := by decide
  have hnone := List.all_eq_true.1 hearlier _ h
  simp only [Bool.and_eq_true, Bool.not_eq_true', Option.isNone_iff_eq_none] at hnone
  obtain ⟨⟨⟨hreduce, hmarket⟩, hlimit⟩, hprice⟩ := hnone
  simp only [read, hreduce, hmarket, hlimit, hprice, List.head?_cons, Option.map_some,
    Option.bind_some, hnumber.number?_toList, Bool.false_eq_true, if_false]
  rw [if_pos (by simpa using h)]

/-- A word around a number has a digit. -/
theorem hasDigit_around (front back : String) (h : IsNumber number) :
    HasDigit (front ++ number ++ back) := by
  obtain ⟨c, hc, hdigit⟩ := h.exists_isDigit
  exact ⟨c, by simp [hc], hdigit⟩

/-- An at sign with a number behind it is read as a limit price. -/
theorem read_atSign (hlow : Text.lower raw = "@" ++ number) (hnumber : IsNumber number)
    (behind : List String) : read raw behind = (atPrice number, 0) := by
  have hdigit : HasDigit (Text.lower raw) := by
    simpa [hlow] using hasDigit_around "@" "" hnumber
  have hcons : (Text.lower raw).toList = '@' :: number.toList := by simp [hlow]
  rw [read_of_hasDigit hdigit, hcons, atPrice?, hnumber.number?_toList]

/-- A number behind an x is read as a leverage. -/
theorem read_leverageBehind (hlow : Text.lower raw = "x" ++ number) (hnumber : IsNumber number)
    (behind : List String) : read raw behind = (leverage number, 0) := by
  have hdigit : HasDigit (Text.lower raw) := by
    simpa [hlow] using hasDigit_around "x" "" hnumber
  have hcons : (Text.lower raw).toList = 'x' :: number.toList := by simp [hlow]
  rw [read_of_hasDigit hdigit, hcons, atPrice?_of_ne (by decide), leverage?, hnumber.number?_toList]

theorem read_leverageBefore (hlow : Text.lower raw = number ++ "x") (hnumber : IsNumber number)
    (behind : List String) : read raw behind = (leverage number, 0) := by
  have hdigit : HasDigit (Text.lower raw) := by
    simpa [hlow] using hasDigit_around "" "x" hnumber
  obtain ⟨c, cs, hcs, hc⟩ := hnumber.exists_toList_eq_cons
  have hne : c ≠ '@' ∧ c ≠ 'x' := by
    constructor <;>
    · rintro rfl
      revert hc
      decide
  have hcons : (Text.lower raw).toList = c :: (cs ++ ['x']) := by simp [hlow, hcs]
  have hread : numberBefore? [['x']] (number.toList ++ ['x']) = some number :=
    numberBefore?_append hnumber (by simp) (by rintro d ⟨⟩; decide)
  rw [hcs, List.cons_append] at hread
  rw [read_of_hasDigit hdigit, hcons, atPrice?_of_ne hne.1, leverage?_of_ne hne.2, hread]

/-- A keyword of a protection with a percentage behind it, in one word, is read as that
protection. -/
theorem read_protectionWord {kind : Protection} {word value : String}
    (hlow : Text.lower raw = word ++ value) (hword : word ∈ kind.keywords)
    (hvalue : IsPercentage value number) (behind : List String) :
    read raw behind = (protection kind number, 0) := by
  have hdigit : HasDigit (Text.lower raw) := by
    obtain ⟨c, hc, hdigit⟩ := hvalue.exists_isDigit
    exact ⟨c, by simp [hlow, hc], hdigit⟩
  have htext : (Text.lower raw).toList = word.toList ++ value.toList := by simp [hlow]
  -- a keyword starts with a letter that no earlier rule asks for
  have hhead : ∃ d ds, word.toList = d :: ds ∧ d ≠ '@' ∧ d ≠ 'x' ∧
      ∀ rest, splitNumber? (d :: rest) = none := by
    cases kind <;>
      simp only [Protection.keywords, List.mem_cons, List.not_mem_nil, or_false] at hword <;>
      rcases hword with rfl | rfl <;>
      exact ⟨_, _, rfl, by decide, by decide, fun rest => rfl⟩
  obtain ⟨d, ds, hds, hat, hx, hsplit⟩ := hhead
  have hprotection := protection?_append hword hvalue
  rw [hds, List.cons_append] at hprotection
  rw [read_of_hasDigit hdigit, htext, hds, List.cons_append, atPrice?_of_ne hat, leverage?_of_ne hx,
    numberBefore?, hsplit, hprotection]

/-- A number with a quote unit as the next word is read as a size in the quote currency. -/
theorem read_sizeMark {next : String} (hnumber : IsNumber (Text.lower raw))
    (hmark : Text.lower next ∈ quoteUnits) (rest : List String) :
    read raw (next :: rest) = (size (Text.lower raw) .quote, 1) := by
  have hlow : Text.lower raw = Text.lower raw ++ "" := by simp
  obtain ⟨hread, hsplit⟩ :=
    read_of_number hlow hnumber (by simp [EndsNumber]) (by decide) (next :: rest)
  rw [hread]
  simp only [readValue, size?, hsplit]
  simp [hmark]

end Rules

/-- A spelling of a clause is read as that clause and owns all its words, whatever follows. Only
behind an amount without a mark the next word must not be a mark. -/
theorem read_of_spells {clause : Clause} {raw : String} {owned rest : List String}
    (h : Spells clause ((raw :: owned).map Text.lower))
    (hunit : ∀ number, clause = size number .base →
      (rest.head?.map Text.lower).any quoteUnits.contains = false) :
    read raw (owned ++ rest) = (clause, owned.length) := by
  generalize hwords : (raw :: owned).map Text.lower = words at h
  rw [List.map_cons] at hwords
  -- the words of a spelling of one word, and of two
  have hone {word : String} (h : Text.lower raw :: owned.map Text.lower = [word]) :
      Text.lower raw = word ∧ owned = [] := by
    simpa using h
  have htwo {first second : String}
      (h : Text.lower raw :: owned.map Text.lower = [first, second]) :
      Text.lower raw = first ∧ ∃ next, owned = [next] ∧ Text.lower next = second := by
    simpa [List.map_eq_cons_iff] using h
  cases h with
  | reduce hword =>
    obtain ⟨rfl, rfl⟩ := hone hwords
    exact read_of_mem_reduceWords hword rest
  | market hword =>
    obtain ⟨rfl, rfl⟩ := hone hwords
    exact read_of_mem_marketWords hword rest
  | limit hword hnumber =>
    obtain ⟨rfl, next, rfl, rfl⟩ := htwo hwords
    exact read_of_mem_limitWords hword hnumber rest
  | atPrice hnumber =>
    obtain ⟨hlow, rfl⟩ := hone hwords
    exact read_atSign hlow hnumber rest
  | leverageWord hword hnumber =>
    obtain ⟨rfl, next, rfl, rfl⟩ := htwo hwords
    exact read_of_mem_leverageWords hword hnumber rest
  | leverageBehind hnumber =>
    obtain ⟨hlow, rfl⟩ := hone hwords
    exact read_leverageBehind hlow hnumber rest
  | leverageBefore hnumber =>
    obtain ⟨hlow, rfl⟩ := hone hwords
    exact read_leverageBefore hlow hnumber rest
  | protectionWord hword hvalue =>
    obtain ⟨hlow, rfl⟩ := hone hwords
    exact read_protectionWord hlow hword hvalue rest
  | protectionValue hword hvalue =>
    obtain ⟨rfl, next, rfl, rfl⟩ := htwo hwords
    have hkeyword := protectionKeyword?_of_mem hword
      (([next] ++ rest).head?.map Text.lower)
    rw [read_of_protectionKeyword? hkeyword, Clause.protectionValue]
    simp [percentage?_eq_some_iff.2 hvalue]
  | protectionPair hpair hvalue =>
    obtain ⟨rfl, howned⟩ := List.cons.inj hwords
    obtain ⟨next, behind, rfl, rfl, hbehind⟩ := List.map_eq_cons_iff.1 howned
    obtain ⟨last, rfl, rfl⟩ := List.map_eq_singleton_iff.1 hbehind
    have hkeyword : protectionKeyword? (Text.lower raw)
        (([next, last] ++ rest).head?.map Text.lower) = some (_, 2) :=
      protectionKeyword?_of_pair hpair
    rw [read_of_protectionKeyword? hkeyword, Clause.protectionValue]
    simp [percentage?_eq_some_iff.2 hvalue]
  | size hmark hnumber =>
    obtain ⟨hlow, rfl⟩ := hone hwords
    refine read_size_of_marks hlow hnumber hmark ?_
    rintro rfl
    exact hunit _ rfl
  | sizeMark hmark hnumber =>
    obtain ⟨rfl, next, rfl, rfl⟩ := htwo hwords
    exact read_sizeMark hnumber hmark rest

end Clause

end OrderTicket.Command
