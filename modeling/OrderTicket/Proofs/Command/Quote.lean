import OrderTicket.Proofs.Command.Market

/-!
# The quote asset of a symbol word

A symbol word may end in more than one known quote asset, as one in `BUSD` also ends in `USD`. The
quote assets may be tried one after the other, longer ones first, and the first match taken. Those
of one length come in any order then, but a word ends in only one of them, so that the first match
is always the longest one, which is the one that `resolveSymbol?` looks for.

* `Finds`: what the search for the longest quote asset answers; `Finds.unique` shows that there is
  one answer.
* `longestQuote?_finds`, `find?_longestFirst_finds`: both ways of searching find it.
* `Splits`: the base of a symbol word and the market that it is resolved to.
* `resolves_in_any_order`: a symbol word is resolved in the same way in any order of the quote
  assets, and by its base.
-/

namespace OrderTicket.Command

/-! ## The longest quote asset -/

section Longest

variable {word quote quote' : String} {quotes quotes' : List String}

/-- A word ends in a quote asset if that stands behind a base, which is not empty. -/
theorem endsIn_iff : endsIn word quote = true ↔ ∃ base, base ≠ "" ∧ word = base ++ quote := by
  rw [endsIn, Bool.and_eq_true, List.isSuffixOf_iff_suffix, decide_eq_true_eq]
  constructor
  · rintro ⟨⟨front, hfront⟩, hlength⟩
    have hword : word = .ofList front ++ quote := String.toList_injective (by simp [← hfront])
    refine ⟨.ofList front, ?_, hword⟩
    intro hempty
    rw [hword, hempty, String.empty_append] at hlength
    exact absurd hlength (Nat.lt_irrefl _)
  · rintro ⟨base, hbase, rfl⟩
    have hpos : base.length ≠ 0 := fun hzero => hbase (String.length_eq_zero_iff.1 hzero)
    exact ⟨⟨base.toList, by simp⟩, by rw [String.length_append]; omega⟩

/-- The quote asset is the longest one that the word ends in. -/
structure IsLongest (word : String) (quotes : List String) (quote : String) : Prop where
  /-- It is one of the quote assets. -/
  mem : quote ∈ quotes
  /-- The word ends in it. -/
  ends : endsIn word quote = true
  /-- The word ends in no longer one. -/
  length_le : ∀ other ∈ quotes, endsIn word other = true → other.length ≤ quote.length

/-- A word has one ending of each length. -/
theorem IsLongest.unique (h : IsLongest word quotes quote) (h' : IsLongest word quotes quote') :
    quote = quote' := by
  have hlength := Nat.le_antisymm (h'.length_le quote h.mem h.ends)
    (h.length_le quote' h'.mem h'.ends)
  rw [← String.length_toList, ← String.length_toList] at hlength
  obtain ⟨base, -, rfl⟩ := endsIn_iff.1 h.ends
  obtain ⟨base', -, heq⟩ := endsIn_iff.1 h'.ends
  have hlists : base.toList ++ quote.toList = base'.toList ++ quote'.toList := by
    simpa using congrArg String.toList heq
  exact String.toList_injective (List.append_inj' hlists hlength).2

/-- What the search for the longest quote asset answers: none, if the word ends in none of them. -/
inductive Finds (word : String) (quotes : List String) : Option String → Prop where
  | none (h : ∀ quote ∈ quotes, endsIn word quote = false) : Finds word quotes none
  | some {quote : String} (h : IsLongest word quotes quote) : Finds word quotes (some quote)

/-- There is one answer, which only depends on what the quote assets are. -/
theorem Finds.unique {found found' : Option String} (h : Finds word quotes found)
    (h' : Finds word quotes' found') (hsame : ∀ quote, quote ∈ quotes ↔ quote ∈ quotes') :
    found = found' := by
  cases h with
  | none hnone =>
    cases h' with
    | none => rfl
    | some hsome => simpa [hsome.ends] using hnone _ ((hsame _).2 hsome.mem)
  | some hsome =>
    cases h' with
    | none hnone => simpa [hsome.ends] using hnone _ ((hsame _).1 hsome.mem)
    | some hsome' =>
      have hmoved : IsLongest word quotes _ :=
        ⟨(hsame _).2 hsome'.mem, hsome'.ends,
          fun other hother => hsome'.length_le other ((hsame other).1 hother)⟩
      rw [hsome.unique hmoved]

/-! ### Searching for the longest match so far -/

/-- The longest match stays so with one more quote asset, unless that is a longer match. -/
theorem IsLongest.concat {last : String} (h : IsLongest word quotes quote)
    (hlast : endsIn word last = true → last.length ≤ quote.length) :
    IsLongest word (quotes ++ [last]) quote := by
  refine ⟨List.mem_append_left _ h.mem, h.ends, List.forall_mem_append.2 ⟨h.length_le, ?_⟩⟩
  simpa using hlast

/-- A match that is longer than the longest one so far is the longest one. -/
theorem Finds.isLongest_last {found : Option String} {last : String} (h : Finds word quotes found)
    (hends : endsIn word last = true) (hlonger : found.all (·.length < last.length) = true) :
    IsLongest word (quotes ++ [last]) last := by
  refine ⟨by simp, hends, List.forall_mem_append.2 ⟨fun other hother hotherEnds => ?_, by simp⟩⟩
  cases h with
  | none hnone => simp [hnone other hother] at hotherEnds
  | some hbest =>
    have hlt := of_decide_eq_true hlonger
    exact (hbest.length_le other hother hotherEnds).trans hlt.le

/-- To look at one more quote asset takes it if it is a longer match than the longest one so far. -/
theorem Finds.concat {found : Option String} (h : Finds word quotes found) (last : String) :
    Finds word (quotes ++ [last])
      (if endsIn word last && found.all (·.length < last.length) then
        Option.some last else found) := by
  split
  · rename_i htaken
    obtain ⟨hends, hlonger⟩ := Bool.and_eq_true_iff.1 htaken
    exact .some (h.isLongest_last hends hlonger)
  · rename_i hkept
    cases h with
    | none hnone =>
      refine .none (List.forall_mem_append.2 ⟨hnone, ?_⟩)
      simpa using hkept
    | some hbest =>
      refine .some (hbest.concat fun hends => ?_)
      simpa [hends] using hkept

/-- The search that keeps the longest match so far finds the longest one. -/
theorem longestQuote?_finds (word : String) (quotes : List String) :
    Finds word quotes (longestQuote? word quotes) := by
  -- on the quote assets from the back, since the last one is looked at last
  induction quotes using List.reverseRecOn with
  | nil => exact .none (by simp)
  | append_singleton quotes last ih =>
    rw [longestQuote?, List.foldl_append]
    exact ih.concat last

/-! ### Searching longer ones first -/

/-- The quote assets with longer ones first, and those of one length as they come. -/
def longestFirst (quotes : List String) : List String :=
  quotes.mergeSort fun quote other => other.length ≤ quote.length

/-- Quote assets that are sorted have the longest one first. -/
theorem pairwise_longestFirst (quotes : List String) :
    (longestFirst quotes).Pairwise fun quote other => other.length ≤ quote.length := by
  have hsorted := @List.pairwise_mergeSort _
    (fun quote other : String => decide (other.length ≤ quote.length))
    (fun _ _ _ hfirst hsecond => decide_eq_true
      ((of_decide_eq_true hsecond).trans (of_decide_eq_true hfirst)))
    (fun quote other => by simpa using Nat.le_total other.length quote.length) quotes
  exact hsorted.imp fun hle => of_decide_eq_true hle

/-- The first match is the longest one, since no longer quote asset comes behind it. -/
theorem find?_longestFirst_finds (word : String) (quotes : List String) :
    Finds word quotes ((longestFirst quotes).find? (endsIn word)) := by
  have hmem {quote : String} : quote ∈ longestFirst quotes ↔ quote ∈ quotes := List.mem_mergeSort
  cases hfind : (longestFirst quotes).find? (endsIn word) with
  | none =>
    refine .none fun quote hquote => ?_
    simpa using List.find?_eq_none.1 hfind quote (hmem.2 hquote)
  | some quote =>
    obtain ⟨hends, front, back, hsplit, hfront⟩ := List.find?_eq_some_iff_append.1 hfind
    have hquote := hmem.1 (List.mem_of_find?_eq_some hfind)
    refine .some ⟨hquote, hends, fun other hother hotherEnds => ?_⟩
    have hpairwise := pairwise_longestFirst quotes
    rw [← hmem, hsplit, List.mem_append, List.mem_cons] at hother
    rw [hsplit, List.pairwise_append, List.pairwise_cons] at hpairwise
    rcases hother with hother | rfl | hother
    · simpa [hotherEnds] using hfront other hother
    · exact le_rfl
    · exact hpairwise.2.1.1 other hother

end Longest

/-! ## Symbol words -/

/-- The market that a symbol word names if it ends in the quote asset `found`, or in none. -/
def marketWith? (settings : CommandSettings) (word : String) (found : Option String) :
    Option String :=
  let (base, symbol) :=
    match found with
    | some quote => (baseOf word quote, word)
    | none => (word, word ++ Text.upper settings.quoteAsset)
  if 2 ≤ base.length ∧ base.length ≤ 10 then some symbol else none

/-- A word is resolved by the longest quote asset that it ends in. -/
theorem resolveSymbol?_eq (settings : CommandSettings) (word : String) :
    resolveSymbol? settings word =
      marketWith? settings word (longestQuote? word (quoteAssets settings)) :=
  rfl

/-- The market that a symbol word names, if the quote assets are tried as they come, longer ones
first, and the first match is taken. -/
def resolveInOrder? (settings : CommandSettings) (quotes : List String) (word : String) :
    Option String :=
  marketWith? settings word ((longestFirst quotes).find? (endsIn word))

/-- The base of a symbol word and the market it names if the base is neither too short nor too long:
the word itself, if a quote asset stands behind the base, and the longest one is taken; else the
whole word is the base and the standard quote asset comes behind it. -/
inductive Splits (settings : CommandSettings) (word : String) : String → String → Prop where
  | known {base quote : String} (hquote : quote ∈ quoteAssets settings) (hbase : base ≠ "")
      (hword : word = base ++ quote)
      (hlongest : ∀ other ∈ quoteAssets settings, ∀ front, front ≠ "" → word = front ++ other →
        other.length ≤ quote.length) :
    Splits settings word base word
  | bare (hnone : ∀ quote ∈ quoteAssets settings, ∀ front, front ≠ "" → word ≠ front ++ quote) :
    Splits settings word word (word ++ Text.upper settings.quoteAsset)

section Symbols

variable {settings : CommandSettings} {word : String}

/-- The quote assets may come in any order, and more than once. -/
theorem resolveInOrder?_eq {quotes : List String}
    (h : ∀ quote, quote ∈ quotes ↔ quote ∈ quoteAssets settings) :
    resolveInOrder? settings quotes word = resolveSymbol? settings word := by
  have hfound := (find?_longestFirst_finds word quotes).unique
    (longestQuote?_finds word (quoteAssets settings)) h
  rw [resolveInOrder?, hfound, resolveSymbol?_eq]

/-- Every word has a base. -/
theorem exists_splits (settings : CommandSettings) (word : String) :
    ∃ base symbol, Splits settings word base symbol := by
  have hends {front quote : String} (hfront : front ≠ "") (hword : word = front ++ quote) :
      endsIn word quote = true := endsIn_iff.2 ⟨front, hfront, hword⟩
  obtain ⟨found, hfinds⟩ : ∃ found, Finds word (quoteAssets settings) found :=
    ⟨_, longestQuote?_finds word (quoteAssets settings)⟩
  cases hfinds with
  | none hnone =>
    refine ⟨word, _, .bare fun quote hquote front hfront hword => ?_⟩
    simpa [hends hfront hword] using hnone quote hquote
  | some hlongest =>
    obtain ⟨base, hbase, hword⟩ := endsIn_iff.1 hlongest.ends
    exact ⟨base, word, .known hlongest.mem hbase hword fun other hother front hfront heq =>
      hlongest.length_le other hother (hends hfront heq)⟩

/-- A symbol word is resolved by its base, if no quote asset is empty. -/
theorem resolveSymbol?_of_splits (hquotes : ∀ quote ∈ quoteAssets settings, quote ≠ "")
    {base symbol : String} (h : Splits settings word base symbol) :
    resolveSymbol? settings word =
      if 2 ≤ base.length ∧ base.length ≤ 10 then some symbol else none := by
  have hfinds := longestQuote?_finds word (quoteAssets settings)
  cases h with
  | @known base quote hquote hbase hword hlongest =>
    have hends : endsIn word quote = true := endsIn_iff.2 ⟨base, hbase, hword⟩
    have hfound : Finds word (quoteAssets settings) (some quote) := by
      refine .some ⟨hquote, hends, fun other hother hotherEnds => ?_⟩
      obtain ⟨front, hfront, heq⟩ := endsIn_iff.1 hotherEnds
      exact hlongest other hother front hfront heq
    -- what is cut off by its length is the quote asset
    have hcut : baseOf word quote = base := by
      have hempty : quote.isEmpty = false := by simpa using hquotes quote hquote
      exact (String.append_left_inj quote).1 ((baseOf_append hempty hends).symm.trans hword)
    rw [resolveSymbol?_eq, hfinds.unique hfound fun _ => Iff.rfl]
    simp only [marketWith?, hcut]
  | bare hnone =>
    have hfound : Finds word (quoteAssets settings) none := by
      refine .none fun quote hquote => Bool.eq_false_iff.2 fun hends => ?_
      obtain ⟨front, hfront, heq⟩ := endsIn_iff.1 hends
      exact hnone quote hquote front hfront heq
    rw [resolveSymbol?_eq, hfinds.unique hfound fun _ => Iff.rfl]
    simp only [marketWith?]

/-- A symbol word is resolved in the same way in whatever order the quote assets come. It has a
base, the word in front of the longest quote asset or the whole word, and is resolved to the market
of that base exactly if the base has two to ten characters. -/
theorem resolves_in_any_order (settings : CommandSettings)
    (hquotes : ∀ quote ∈ settings.quoteAsset :: settings.knownQuoteAssets, quote ≠ "")
    (word : String) :
    (∀ quotes : List String, (∀ quote, quote ∈ quotes ↔ quote ∈ quoteAssets settings) →
      resolveInOrder? settings quotes word = resolveSymbol? settings word) ∧
    (∃ base symbol, Splits settings word base symbol) ∧
    ∀ base symbol, Splits settings word base symbol →
      resolveSymbol? settings word =
        if 2 ≤ base.length ∧ base.length ≤ 10 then some symbol else none := by
  have hupper : ∀ quote ∈ quoteAssets settings, quote ≠ "" := by
    intro quote hquote
    obtain ⟨asset, hasset, rfl⟩ := List.mem_map.1 hquote
    exact Text.upper_ne_empty (hquotes asset hasset)
  exact ⟨fun _ hsame => resolveInOrder?_eq hsame, exists_splits settings word,
    fun _ _ hsplits => resolveSymbol?_of_splits hupper hsplits⟩

/-- A word in `BUSD` also ends in `USD`, and is a market in `BUSD` even if that is tried after
quote assets of the same length and listed behind `USD`. -/
theorem resolves_in_any_order_busd :
    (∀ quote ∈ ({} : CommandSettings).quoteAsset :: ({} : CommandSettings).knownQuoteAssets,
      quote ≠ "") ∧
    resolveInOrder? {} ["USD", "USDC", "BUSD", "USDT"] "ETHBUSD" = some "ETHBUSD" := by
  have hquotes : ∀ quote ∈
      ({} : CommandSettings).quoteAsset :: ({} : CommandSettings).knownQuoteAssets, quote ≠ "" := by
    decide
  refine ⟨hquotes, ?_⟩
  rw [(resolves_in_any_order {} hquotes "ETHBUSD").1 _ fun quote => by
    rw [quoteAssets_standard]
    simp only [List.mem_cons, List.not_mem_nil, or_false]
    tauto]
  decide +kernel

end Symbols

end OrderTicket.Command
