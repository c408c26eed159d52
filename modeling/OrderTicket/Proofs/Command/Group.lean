import Mathlib.Data.List.Chain
import Mathlib.Data.List.Forall2
import OrderTicket.Proofs.Command.Clause
import OrderTicket.Proofs.Command.Grammar

/-!
# Groups of words

The words of a command are cut into groups, one for each clause: the word that the clause starts at
and the words that it owns. This module shows that groups which are complete by themselves may be
put one behind the other in any way that keeps them apart: they are cut at the same places again.

* `Clause.groups`: the groups of a list of words; together they are the words (`flatten_groups`).
* `Clause.Says`: a group is a spelling of a clause or a symbol.
* `Clause.Apart`: two groups that are not read together when they become neighbours.
* `Clause.readAll_flatten`: the clauses of groups that are kept apart.
* `Clause.says_groups`, `Clause.isChain_groups`: the groups that a list of words is cut into.
-/

namespace OrderTicket.Command.Clause

/-! ## Cutting words into groups -/

/-- The groups of a list of words, of which the first `owned` belong to an earlier group. -/
def groupsFrom : Nat → List String → List (List String)
  | _, [] => []
  | owned + 1, _ :: rest => groupsFrom owned rest
  | 0, word :: rest =>
    let owned := (read word rest).2
    (word :: rest.take owned) :: groupsFrom owned rest

/-- The groups of a list of words: each clause with the words that it owns. -/
def groups (words : List String) : List (List String) :=
  groupsFrom 0 words

/-- To group words from a position is to group the words behind it. -/
theorem groupsFrom_eq_groups (owned : Nat) (words : List String) :
    groupsFrom owned words = groups (words.drop owned) := by
  induction words generalizing owned with
  | nil => cases owned <;> simp [groups, groupsFrom]
  | cons word rest ih =>
    cases owned with
    | zero => rfl
    | succ owned => rw [groupsFrom, ih, List.drop_succ_cons]

@[simp]
theorem groups_nil : groups [] = [] :=
  rfl

/-- The next group starts behind the first one. -/
theorem groups_cons (word : String) (rest : List String) :
    groups (word :: rest) =
      (word :: rest.take (read word rest).2) :: groups (rest.drop (read word rest).2) := by
  rw [← groupsFrom_eq_groups]
  rfl

/-- A statement about lists of words holds if it does of the empty list, and of a list whenever it
does of the words behind the first clause. -/
theorem words_induction {P : List String → Prop} (nil : P [])
    (cons : ∀ word rest, P (rest.drop (read word rest).2) → P (word :: rest))
    (words : List String) : P words := by
  induction hn : words.length using Nat.strongRecOn generalizing words with
  | _ n ih =>
    cases words with
    | nil => exact nil
    | cons word rest =>
      refine cons word rest (ih _ ?_ _ rfl)
      rw [← hn, List.length_drop, List.length_cons]
      omega

/-- No word is lost. -/
theorem flatten_groups (words : List String) : (groups words).flatten = words := by
  induction words using words_induction with
  | nil => rfl
  | cons word rest ih =>
    rw [groups_cons, List.flatten_cons, ih, List.cons_append, List.take_append_drop]

/-- The first group starts at the first word. -/
theorem head?_of_groups {group : List String} {words : List String}
    (h : (groups words).head? = some group) : group.head? = words.head? := by
  cases words with
  | nil => cases h
  | cons word rest =>
    rw [groups_cons] at h
    cases h
    rfl

/-! ## Groups by themselves -/

theorem exists_mem_of_forall₂ {α β : Type} {R : α → β → Prop} {as : List α} {bs : List β}
    (h : List.Forall₂ R as bs) {a : α} (ha : a ∈ as) : ∃ b ∈ bs, R a b := by
  induction h with
  | nil => cases ha
  | cons hab _ ih =>
    rcases List.mem_cons.1 ha with rfl | ha
    · exact ⟨_, List.mem_cons_self, hab⟩
    · obtain ⟨b, hb, hab⟩ := ih ha
      exact ⟨b, List.mem_cons_of_mem _ hb, hab⟩

/-- The group says the clause by itself: it is a spelling of it, or a word that no rule but that
for symbols claims. -/
inductive Says : List String → Clause → Prop
  | term {group : List String} {clause : Clause} (h : Spells clause (group.map Text.lower)) :
    Says group clause
  | symbol {raw word : String} (h : read raw [] = (symbol word, 0)) : Says [raw] (symbol word)

/-- Two words that are read together, though the first one could stand alone: an amount and its
unit, and the two words of a keyword. -/
def Joins (word next : String) : Prop :=
  (IsNumber word ∧ next ∈ quoteUnits) ∨ ∃ kind : Protection, (word, next) ∈ kind.pairs

/-- A group is not read together with a word of the next one. -/
def Apart (group next : List String) : Prop :=
  ∀ raw word, group = [raw] → next.head? = some word → ¬ Joins (Text.lower raw) (Text.lower word)

/-- The words that a spelling may start with, other than those with a digit. -/
def heads : List String :=
  reduceWords ++ marketWords ++ limitWords ++ leverageWords ++ protectionHeads

/-- A spelling starts with a keyword or with a word that has a digit. If it is only one word, the
keyword is one that stands alone. -/
theorem Spells.head {clause : Clause} {word : String} {rest : List String}
    (h : Spells clause (word :: rest)) :
    HasDigit word ∨ (word ∈ heads ∧ (rest = [] → word ∈ reduceWords ++ marketWords)) := by
  -- the word is generalised, so that the cases of the spelling can be taken
  generalize hwords : word :: rest = words at h
  have hnumber {number : String} (front back : String) (h : IsNumber number) :
      HasDigit (front ++ number ++ back) := hasDigit_around front back h
  cases h with
  | reduce hword | market hword =>
    obtain ⟨rfl, rfl⟩ := List.cons.inj hwords
    exact .inr ⟨by simp [heads, hword], fun _ => by simp [hword]⟩
  | limit hword | leverageWord hword =>
    obtain ⟨rfl, rfl⟩ := List.cons.inj hwords
    exact .inr ⟨by simp [heads, hword], nofun⟩
  | atPrice h =>
    obtain ⟨rfl, rfl⟩ := List.cons.inj hwords
    exact .inl (by simpa using hnumber "@" "" h)
  | leverageBehind h =>
    obtain ⟨rfl, rfl⟩ := List.cons.inj hwords
    exact .inl (by simpa using hnumber "x" "" h)
  | leverageBefore h =>
    obtain ⟨rfl, rfl⟩ := List.cons.inj hwords
    exact .inl (by simpa using hnumber "" "x" h)
  | protectionWord hword hvalue =>
    obtain ⟨rfl, rfl⟩ := List.cons.inj hwords
    obtain ⟨c, hc, hdigit⟩ := hvalue.exists_isDigit
    exact .inl ⟨c, by simp [hc], hdigit⟩
  | protectionValue hword =>
    obtain ⟨rfl, rfl⟩ := List.cons.inj hwords
    exact .inr ⟨List.mem_append_right _ (keywords_subset _ hword), nofun⟩
  | protectionPair hpair =>
    obtain ⟨rfl, rfl⟩ := List.cons.inj hwords
    exact .inr ⟨List.mem_append_right _ (mem_protectionHeads_of_pair hpair), nofun⟩
  | size _ h =>
    obtain ⟨rfl, rfl⟩ := List.cons.inj hwords
    exact .inl (by simpa using hnumber "" _ h)
  | sizeMark _ h =>
    obtain ⟨rfl, rfl⟩ := List.cons.inj hwords
    exact .inl (by simpa using hnumber "" "" h)

/-- The only spelling of an amount without a unit is the amount. -/
theorem Spells.eq_of_base {number : String} {words : List String}
    (h : Spells (Clause.size number .base) words) : words = [number] ∧ IsNumber number := by
  cases h with
  | size hmark hnumber =>
    obtain rfl : _ = "" := by simpa [marks] using hmark
    exact ⟨by simp, hnumber⟩

/-! ## Words that are read together -/

/-- A word that joins the one before it is a unit or the end of a keyword. -/
theorem mem_of_joins {word next : String} (h : Joins word next) :
    next ∈ quoteUnits ++ ["loss", "profit"] := by
  rcases h with ⟨-, hunit⟩ | ⟨kind, hpair⟩
  · exact List.mem_append_left _ hunit
  · cases kind <;> simp_all [Protection.pairs]

/-- No spelling starts with a word that is read together with the one in front of it. -/
theorem Spells.not_joins_head {clause : Clause} {first word : String} {rest : List String}
    (h : Spells clause (word :: rest)) : ¬ Joins first word := by
  intro hjoins
  have hmem := mem_of_joins hjoins
  rcases h.head with hdigit | ⟨hhead, -⟩
  · have hnone : (quoteUnits ++ ["loss", "profit"]).contains word = false :=
      contains_of_hasDigit (by decide +kernel) hdigit
    simp [hmem] at hnone
  · have hall : heads.all (fun word =>
        !(quoteUnits ++ ["loss", "profit"]).contains word) = true := by decide +kernel
    have hnone := List.all_eq_true.1 hall word hhead
    simp [hmem] at hnone

/-- The first word of a keyword of two words is no spelling by itself. -/
theorem Spells.not_pair {clause : Clause} {kind : Protection} {word next : String}
    (h : Spells clause [word]) : (word, next) ∉ kind.pairs := by
  intro hpair
  have hmem : word ∈ ["stop", "take"] := by cases kind <;> simp_all [Protection.pairs]
  rcases h.head with hdigit | ⟨-, hhead⟩
  · have hnone : ["stop", "take"].contains word = false :=
      contains_of_hasDigit (by decide +kernel) hdigit
    simp [hmem] at hnone
  · have hall : (reduceWords ++ marketWords).all (fun word => !(["stop", "take"].contains word)) =
        true := by decide +kernel
    have hnone := List.all_eq_true.1 hall word (hhead rfl)
    simp [hmem] at hnone

/-- A spelling in one word is read as its clause when nothing follows. -/
theorem Spells.read_alone {clause : Clause} {raw : String} (h : Spells clause [Text.lower raw]) :
    read raw [] = (clause, 0) := by
  have hone : Spells clause ([raw].map Text.lower) := h
  have hread : read raw ([] ++ []) = (clause, 0) := read_of_spells hone (by simp)
  rwa [List.append_nil] at hread

/-- Of the spellings in one word only an amount is read together with the next word. -/
theorem Spells.eq_size_of_joins {clause : Clause} {raw next : String}
    (h : Spells clause [Text.lower raw]) (hjoins : Joins (Text.lower raw) next) :
    IsNumber (Text.lower raw) ∧ clause = Clause.size (Text.lower raw) .base := by
  rcases hjoins with ⟨hnumber, -⟩ | ⟨kind, hpair⟩
  · have hsize : Spells (Clause.size (Text.lower raw) .base) [Text.lower raw ++ ""] :=
      .size (by simp [marks]) hnumber
    rw [String.append_empty] at hsize
    -- the word is read as both clauses
    have hread := h.read_alone
    rw [hsize.read_alone] at hread
    exact ⟨hnumber, (Prod.mk.inj hread).1.symm⟩
  · exact absurd hpair h.not_pair

/-- Words that are read together are read as one clause, with or without a value behind them. -/
theorem owned_of_joins {raw next : String} {rest : List String}
    (h : Joins (Text.lower raw) (Text.lower next)) : (read raw (next :: rest)).2 ≠ 0 := by
  rcases h with ⟨hnumber, hunit⟩ | ⟨kind, hpair⟩
  · rw [read_sizeMark hnumber hunit]
    simp
  · have hkeyword : protectionKeyword? (Text.lower raw) ((next :: rest).head?.map Text.lower) =
        some (kind, 2) := protectionKeyword?_of_pair hpair
    rw [read_of_protectionKeyword? hkeyword, Clause.protectionValue]
    split
    · simp
    · split <;> simp

/-- A word that is no keyword by itself is none together with a word that does not join it. -/
theorem protectionKeyword?_of_not_joins {word : String} {next : Option String}
    (h : protectionKeyword? word none = none) (hnext : ∀ w, next = some w → ¬ Joins word w) :
    protectionKeyword? word next = none := by
  cases hkeyword : protectionKeyword? word next with
  | none => rfl
  | some found =>
    rcases protectionKeyword?_eq_some hkeyword with ⟨-, hword⟩ | ⟨-, second, hsecond, hpair⟩
    · rw [protectionKeyword?_of_mem hword] at h
      cases h
    · exact absurd (.inr ⟨_, hpair⟩) (hnext second hsecond)

/-! ## Groups one behind the other -/

/-- A group that says a clause is read as that clause, if the next word does not join it. -/
theorem read_of_says {clause : Clause} {raw : String} {owned rest : List String}
    (h : Says (raw :: owned) clause)
    (hrest : ∀ next, owned = [] → rest.head? = some next →
      ¬ Joins (Text.lower raw) (Text.lower next)) :
    read raw (owned ++ rest) = (clause, owned.length) := by
  cases h with
  | term h =>
    refine read_of_spells h ?_
    -- an amount without a mark would own a unit as the next word
    rintro number rfl
    obtain ⟨hwords, hnumber⟩ := h.eq_of_base
    obtain ⟨rfl, howned⟩ := List.cons.inj hwords
    cases rest with
    | nil => rfl
    | cons next rest =>
      have hjoins := hrest next (List.map_eq_nil_iff.1 howned) rfl
      have hunit : Text.lower next ∉ quoteUnits := fun hmem => hjoins (.inl ⟨hnumber, hmem⟩)
      simpa using hunit
  | symbol h =>
    have hsymbol : (read raw []).1 = .symbol _ := congrArg Prod.fst h
    have hkeyword : protectionKeyword? (Text.lower raw) (([] : List String).head?.map Text.lower) =
        none := protectionKeyword?_of_symbol hsymbol
    refine read_of_symbol hsymbol rfl rfl (protectionKeyword?_of_not_joins hkeyword ?_)
    intro w hw
    obtain ⟨next, hnext, rfl⟩ := Option.map_eq_some_iff.1 hw
    exact hrest next rfl hnext

/-- A group that says a clause has a first word. -/
theorem Says.exists_cons {group : List String} {clause : Clause} (h : Says group clause) :
    ∃ raw owned, group = raw :: owned := by
  cases h with
  | symbol h => exact ⟨_, [], rfl⟩
  | term h =>
    cases group with
    | nil => cases h
    | cons raw owned => exact ⟨raw, owned, rfl⟩

/-- A group says one clause only. -/
theorem Says.eq_of_spells {group : List String} {clause clause' : Clause} (h : Says group clause)
    (h' : Spells clause' (group.map Text.lower)) : clause = clause' := by
  obtain ⟨raw, owned, rfl⟩ := h.exists_cons
  have hread : read raw (owned ++ []) = (clause, owned.length) := read_of_says h (by simp)
  have hread' : read raw (owned ++ []) = (clause', owned.length) := read_of_spells h' (by simp)
  exact (Prod.mk.inj (hread.symm.trans hread')).1

/-- Groups that are kept apart are read one by one, and then what is behind them. -/
theorem readAll_flatten_append {groups : List (List String)} {clauses : List Clause}
    {rest : List String} (h : List.Forall₂ Says groups clauses)
    (hapart : (groups ++ [rest]).IsChain Apart) :
    readAll (groups.flatten ++ rest) = clauses ++ readAll rest := by
  induction h with
  | nil => rfl
  | @cons group clause groups clauses hsays hrest ih =>
    obtain ⟨raw, owned, rfl⟩ := hsays.exists_cons
    obtain ⟨hnext, hapart⟩ := List.isChain_cons.1 hapart
    have hread : read raw (owned ++ (groups.flatten ++ rest)) = (clause, owned.length) := by
      refine read_of_says hsays ?_
      rintro next rfl hhead
      -- the next word is the first one of the next group, or of what is behind the groups
      cases hrest with
      | nil => exact hnext _ rfl raw next rfl hhead
      | cons hsays' =>
        obtain ⟨word, behind, rfl⟩ := hsays'.exists_cons
        cases hhead
        exact hnext _ rfl raw next rfl rfl
    rw [List.flatten_cons, List.append_assoc, List.cons_append, readAll_cons, hread, List.drop_left,
      ih hapart, List.cons_append]

/-- Groups that are kept apart are read one by one. -/
theorem readAll_flatten {groups : List (List String)} {clauses : List Clause}
    (h : List.Forall₂ Says groups clauses) (hapart : groups.IsChain Apart) :
    readAll groups.flatten = clauses := by
  have hnothing : (groups ++ [[]]).IsChain Apart := by
    refine List.isChain_append.2 ⟨hapart, .singleton _, ?_⟩
    rintro group - next hnext raw word - hhead
    obtain rfl : [] = next := by simpa using hnext
    cases hhead
  simpa using readAll_flatten_append h hnothing

/-- A word that is read as a symbol somewhere is read as one by itself, and owns no other word. -/
theorem read_alone_of_symbol {raw word : String} {behind : List String}
    (h : (read raw behind).1 = symbol word) : read raw [] = (symbol word, 0) := by
  refine read_of_symbol h rfl rfl ?_
  -- without the next word there is no keyword of two words either
  cases hkeyword : protectionKeyword? (Text.lower raw) none with
  | none => exact hkeyword
  | some found =>
    rcases protectionKeyword?_eq_some hkeyword with ⟨-, hword⟩ | ⟨-, second, hsecond, -⟩
    · have hnone := protectionKeyword?_of_symbol h
      rw [protectionKeyword?_of_mem hword] at hnone
      cases hnone
    · cases hsecond

/-- What is read as a term or as a symbol is said by the words of the clause. -/
theorem says_of_read {raw : String} {behind : List String} {clause : Clause} {owned : Nat}
    (h : read raw behind = (clause, owned))
    (hclause : clause.isTerm = true ∨ ∃ word, clause = symbol word) :
    Says (raw :: behind.take owned) clause := by
  rcases hclause with hterm | ⟨word, rfl⟩
  · exact .term (spells_of_read h hterm)
  · have hsymbol : (read raw behind).1 = symbol word := by rw [h]
    have hbehind := read_of_symbol hsymbol rfl rfl (protectionKeyword?_of_symbol hsymbol)
    obtain ⟨-, rfl⟩ := Prod.mk.inj (hbehind.symm.trans h)
    exact .symbol (read_alone_of_symbol hsymbol)

/-- A word that spells a clause by itself is never read as a symbol, whatever follows. -/
theorem Spells.read_ne_symbol {clause : Clause} {raw word : String} {behind : List String}
    (h : Spells clause [Text.lower raw]) : (read raw behind).1 ≠ symbol word := by
  intro hsymbol
  -- the word would be read as a symbol by itself, but then it is read as what it spells
  have halone := (read_alone_of_symbol hsymbol).symm.trans h.read_alone
  obtain rfl : symbol word = clause := (Prod.mk.inj halone).1
  cases h

/-- The groups of words say the clauses that are read from the words. -/
theorem says_groups {words : List String}
    (h : ∀ clause ∈ readAll words, clause.isTerm = true ∨ ∃ word, clause = symbol word) :
    List.Forall₂ Says (groups words) (readAll words) := by
  induction words using words_induction with
  | nil => exact .nil
  | cons word rest ih =>
    rw [readAll_cons] at h ⊢
    rw [groups_cons]
    exact .cons (says_of_read rfl (h _ List.mem_cons_self))
      (ih fun clause hclause => h clause (List.mem_cons_of_mem _ hclause))

/-- The groups that words are cut into are apart. -/
theorem isChain_groups (words : List String) : (groups words).IsChain Apart := by
  induction words using words_induction with
  | nil => exact .nil
  | cons raw rest ih =>
    rw [groups_cons]
    refine List.isChain_cons.2 ⟨?_, ih⟩
    intro group hgroup first next hraw hnext hjoins
    -- a group of one word owns nothing, so the next group starts at the next word
    obtain ⟨rfl, howned⟩ := List.cons.inj hraw
    rw [head?_of_groups hgroup] at hnext
    cases rest with
    | nil => simp at hnext
    | cons word rest =>
      have hzero : (read raw (word :: rest)).2 = 0 := by simpa using howned
      rw [hzero] at hnext
      cases hnext
      exact owned_of_joins hjoins hzero

/-- A limit clause without a price is a group of its keyword only. -/
theorem exists_group_of_limit {words : List String} (h : limit none ∈ readAll words) :
    ∃ word, [word] ∈ groups words ∧ Text.lower word ∈ limitWords := by
  induction words using words_induction with
  | nil => simp at h
  | cons word rest ih =>
    rw [groups_cons]
    rw [readAll_cons, List.mem_cons] at h
    rcases h with hlimit | hrest
    · obtain ⟨hword, hnone⟩ := limitWord_of_read hlimit.symm
      exact ⟨word, by simp [hnone], hword⟩
    · obtain ⟨other, hgroup, hword⟩ := ih hrest
      exact ⟨other, List.mem_cons_of_mem _ hgroup, hword⟩

end OrderTicket.Command.Clause
