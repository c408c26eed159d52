import OrderTicket.Proofs.Command.Rendered
import OrderTicket.Proofs.Command.Sound
import OrderTicket.Proofs.Command.Variants
import OrderTicket.Proofs.Text.UpperCase

/-!
# Markets as words

A symbol word names a market, and the market is a symbol word again. This module shows, for the
standard settings, what is read where a market stands in a command. It ends in a quote asset, which
no keyword does, nor a price, a leverage, a protection or a share. An amount does: digits in front
of a quote asset are an amount of it, and a market that looks like that is read as one.

* `resolveSymbol?_again`: a market names itself.
* `LooksLikeAmount`: markets that are digits in front of a quote asset.
* `Clause.exists_spells_of_looksLikeAmount`, `Clause.read_market`: what these markets are read as,
  and all others.
-/

namespace OrderTicket.Command

/-! ## Markets that are named -/

theorem quoteAssets_standard : quoteAssets {} = ["USDT", "USDT", "BUSD", "USDC", "USD"] := by
  decide +kernel

/-- A word with the standard quote asset behind it ends in no longer one. -/
theorem longestQuote?_append (word : String) (h : 0 < word.length) :
    longestQuote? (word ++ "USDT") (quoteAssets {}) = some "USDT" := by
  have hends {quote : String} : endsIn (word ++ "USDT") quote =
      (quote.toList.isSuffixOf (word.toList ++ ['U', 'S', 'D', 'T']) &&
        decide (quote.length < word.length + 4)) := by
    rw [endsIn, String.toList_append, String.length_append]
    rfl
  have htether : endsIn (word ++ "USDT") "USDT" = true := by
    rw [hends, Bool.and_eq_true, List.isSuffixOf_iff_suffix]
    exact ⟨List.suffix_append _ _, decide_eq_true (show 4 < word.length + 4 by omega)⟩
  -- other quote assets end in another letter than the word does
  have hother (quote : String) (last : Char) (front : List Char)
      (hquote : quote.toList = front ++ [last]) (hne : last ≠ 'T') :
      endsIn (word ++ "USDT") quote = false := by
    rw [hends, Bool.and_eq_false_iff]
    refine .inl (Bool.eq_false_iff.2 fun hsuffix => hne ?_)
    obtain ⟨rest, hrest⟩ := List.isSuffixOf_iff_suffix.1 hsuffix
    have hlast := congrArg List.getLast? hrest
    simpa [hquote] using hlast
  rw [quoteAssets_standard, longestQuote?]
  simp only [List.foldl_cons, List.foldl_nil, htether,
    hother "BUSD" 'D' ['B', 'U', 'S'] rfl (by decide),
    hother "USDC" 'C' ['U', 'S', 'D'] rfl (by decide),
    hother "USD" 'D' ['U', 'S'] rfl (by decide)]
  rfl

/-- A market names itself. -/
theorem resolveSymbol?_again {word market : String} (h : resolveSymbol? {} word = some market) :
    resolveSymbol? {} market = some market := by
  have hword := h
  unfold resolveSymbol? at h
  cases hlongest : longestQuote? word (quoteAssets {}) with
  | some quote =>
    rw [hlongest] at h
    obtain ⟨-, hmarket⟩ := Option.ite_none_right_eq_some.1 h
    obtain rfl := Option.some.inj hmarket
    exact hword
  | none =>
    rw [hlongest] at h
    obtain ⟨hlength, hmarket⟩ := Option.ite_none_right_eq_some.1 h
    have hquote : Text.upper ({} : CommandSettings).quoteAsset = "USDT" := by decide +kernel
    obtain rfl : word ++ "USDT" = market := by
      rw [← hquote]
      exact Option.some.inj hmarket
    have hends := (longestQuote?_eq_some (longestQuote?_append word (by omega))).2
    -- the base is what stood in front of the quote asset
    have hbase : baseOf (word ++ "USDT") "USDT" = word :=
      (String.append_left_inj "USDT").1 (baseOf_append (by decide +kernel) hends).symm
    rw [resolveSymbol?, longestQuote?_append word (by omega)]
    simp only [hbase]
    exact if_pos hlength

/-- A base in front of a known quote asset, in capital letters and digits. -/
structure IsMarket (market : String) : Prop where
  /-- It has capital letters and digits only. -/
  isSymbol : Clause.isSymbol market = true
  /-- It is a base of up to ten characters in front of a quote asset. -/
  exists_base : ∃ base quote, quote ∈ quoteAssets {} ∧ market = base ++ quote ∧ base.length ≤ 10

/-- What a word is resolved to under the standard settings is a market. -/
theorem isMarket_of_resolve {word market : String} (hword : Clause.isSymbol word = true)
    (h : resolveSymbol? {} word = some market) : IsMarket market := by
  obtain ⟨-, base, -, hhigh, ⟨rfl, quote, hquote, heq⟩ | ⟨rfl, rfl⟩⟩ :=
    namesMarket_of_resolve hword h
  · exact ⟨hword, base, quote, hquote, heq, hhigh⟩
  · -- the standard quote asset was put behind the word
    have hquote : Clause.isSymbol (Text.upper ({} : CommandSettings).quoteAsset) = true := by
      decide +kernel
    refine ⟨?_, base, _, List.mem_cons_self, rfl, hhigh⟩
    simp only [Clause.isSymbol, Bool.and_eq_true, String.toList_append, List.all_append] at *
    exact ⟨by simpa using fun h => absurd h (by simpa using hword.1), hword.2, hquote.2⟩

/-- A market has no more than fourteen characters. -/
theorem IsMarket.length_le {market : String} (h : IsMarket market) : market.length ≤ 14 := by
  have hquotes : ∀ quote ∈ quoteAssets {}, quote.length ≤ 4 := by decide +kernel
  obtain ⟨base, quote, hquote, rfl, hbase⟩ := h.exists_base
  have hlength := hquotes quote hquote
  rw [String.length_append]
  omega

/-! ## Symbol words in other letters -/

namespace Clause

variable {word : String}

/-- A symbol has capital letters and digits only. -/
theorem isUpper_or_isDigit_of_isSymbol (h : isSymbol word = true) {c : Char}
    (hc : c ∈ word.toList) : c.isUpper = true ∨ c.isDigit = true := by
  simp only [isSymbol, Bool.and_eq_true, List.all_eq_true, Bool.or_eq_true] at h
  exact h.2 c hc

/-- The lower case of a capital letter or digit is a small letter or digit of ASCII. -/
theorem toLower_of_isUpper_or_isDigit {c : Char} (h : c.isUpper = true ∨ c.isDigit = true) :
    Text.IsLow c.toLower ∧ (c.toLower.isLower = true ∨ c.toLower.isDigit = true) ∧
      c.toUpper = c := by
  have hascii : c.toNat < 128 := by
    rcases h with h | h
    · have := Text.toNat_of_isUpper h
      omega
    · have := Text.toNat_of_isDigit h
      omega
  have hall : c.isUpper = true ∨ c.isDigit = true → Text.IsLow c.toLower ∧
      (c.toLower.isLower = true ∨ c.toLower.isDigit = true) ∧ c.toUpper = c :=
    Text.forall_ascii c hascii (by decide +kernel)
  exact hall h

/-- The lower case of a symbol word changes its letters one by one. -/
theorem lower_of_isSymbol (h : isSymbol word = true) : Text.lower word = word.toLower := by
  rw [← Text.lower_toLower]
  refine Text.lower_eq_self fun c hc => ?_
  rw [Text.toList_toLower] at hc
  obtain ⟨d, hd, rfl⟩ := List.mem_map.1 hc
  exact (toLower_of_isUpper_or_isDigit (isUpper_or_isDigit_of_isSymbol h hd)).1

/-- A symbol word is its own upper case. -/
theorem upper_of_isSymbol (h : isSymbol word = true) : Text.upper word = word := by
  have hself : ∀ c ∈ word.toList, Text.upperChar c = [c] := by
    intro c hc
    have hletter := isUpper_or_isDigit_of_isSymbol h hc
    rw [Text.upperChar_of_ascii ((ne_nil_of_isSymbol h).2 c hc),
      (toLower_of_isUpper_or_isDigit hletter).2.2]
  rw [Text.upper, List.flatMap_congr hself, List.flatMap_singleton', String.ofList_toList]

end Clause

/-! ## Amounts of a quote asset -/

/-- Digits are written for the number that they stand for. -/
theorem exists_writes_digits {digits : String} (hne : digits ≠ "")
    (hdigits : ∀ c ∈ digits.toList, c.isDigit = true) :
    ∃ n < 10 ^ digits.length, Writes digits (.finite false n 0) := by
  let numeral : Numeral :=
    { whole := digits.toList, fraction := [], whole_ne_nil := by simpa using hne
      isDigit := by simpa using hdigits }
  refine ⟨Digits.ofChars digits.toList, ?_, false, numeral, ?_, ?_, ?_⟩
  · rw [← String.length_toList]
    exact Digits.ofChars_lt hdigits
  · simp [numeral, Numeral.text, Decimal.signText]
  · simp [numeral, Numeral.signed, Numeral.coefficient]
  · simp only [numeral, List.length_nil]
    decide

namespace Clause

/-- Digits in front of a quote asset spell an amount of it, and digits alone an amount without a
unit. -/
theorem exists_spells_digits {digits quote : String} (hne : digits ≠ "")
    (hdigits : ∀ c ∈ digits.toList, c.isDigit = true) (hquote : quote ∈ "" :: quoteAssets {}) :
    ∃ unit, (quote ≠ "" → unit = .quote) ∧
      Spells (size digits unit) [Text.lower (digits ++ quote)] := by
  obtain ⟨n, -, hwrites⟩ := exists_writes_digits hne hdigits
  have hsymbol : isSymbol (digits ++ quote) = true := by
    have hquotes : ("" :: quoteAssets {}).all (fun quote =>
        quote.toList.all fun c => c.isUpper || c.isDigit) = true := by decide +kernel
    simp only [isSymbol, String.toList_append, List.all_append, Bool.and_eq_true,
      List.all_eq_true.1 hquotes quote hquote, and_true, Bool.not_eq_true',
      List.isEmpty_eq_false_iff, List.all_eq_true, Bool.or_eq_true]
    refine ⟨List.append_ne_nil_of_left_ne_nil (by simpa using hne) _, fun c hc => ?_⟩
    exact .inr (hdigits c hc)
  have hlower : Text.lower (digits ++ quote) = digits ++ quote.toLower := by
    have hself : digits.toList.map Char.toLower = digits.toList := by
      refine (List.map_congr_left fun c hc => ?_).trans (List.map_id _)
      exact Text.toLower_of_isLow (Text.isLow_of_isDigit (hdigits c hc))
    rw [lower_of_isSymbol hsymbol]
    apply String.toList_injective
    simp [hself]
  have hunit : ∀ quote ∈ quoteAssets {}, quote.toLower ∈ quoteUnits := by
    rw [quoteAssets_standard]
    decide +kernel
  rw [hlower]
  rcases List.mem_cons.1 hquote with rfl | hquote
  · exact ⟨.base, fun h => absurd rfl h, .size (by decide +kernel) hwrites.isNumber⟩
  · exact ⟨.quote, fun _ => rfl, .size (hunit quote hquote) hwrites.isNumber⟩

/-! ## Words that end in a quote asset -/

/-- The word ends in one of the quote assets, in small letters. -/
def EndsInQuote (word : String) : Prop :=
  ∃ quote ∈ ["usdt", "busd", "usdc", "usd"], quote.toList <:+ word.toList

instance (word : String) : Decidable (EndsInQuote word) :=
  inferInstanceAs (Decidable (∃ quote ∈ _, _))

namespace EndsInQuote

variable {word number : String}

/-- The last character is a letter, and not one that stands behind a number for a price, a leverage
or a percentage. -/
theorem exists_last (h : EndsInQuote word) :
    ∃ c ∈ ['t', 'd', 'c'], word.toList.getLast? = some c := by
  obtain ⟨quote, hquote, front, hfront⟩ := h
  have hall : ∀ quote ∈ ["usdt", "busd", "usdc", "usd"],
      quote.toList.getLast? ∈ ['t', 'd', 'c'].map some := by decide +kernel
  obtain ⟨c, hc, hlast⟩ := List.mem_map.1 (hall quote hquote)
  exact ⟨c, hc, by rw [← hfront, List.getLast?_append, ← hlast]; rfl⟩

/-- A word that ends in a quote asset does not end in a number. -/
theorem ne_append_of_isNumber (h : EndsInQuote word) (hnumber : IsNumber number)
    (front : String) : word ≠ front ++ number := by
  rintro rfl
  obtain ⟨c, hc, hlast⟩ := h.exists_last
  obtain ⟨d, ds, hds, -⟩ := hnumber.exists_toList_eq_cons
  rw [String.toList_append, List.getLast?_append_of_ne_nil _ (by simp [hds])] at hlast
  have hlower : c.isLower = true := by
    have hall : ['t', 'd', 'c'].all Char.isLower = true := by decide
    exact List.all_eq_true.1 hall c hc
  rw [hnumber.not_isLower (List.mem_of_getLast? hlast)] at hlower
  cases hlower

/-- A word that ends in a quote asset does not end in a mark with another last letter. -/
theorem ne_append_of_last (h : EndsInQuote word) {front mark : String} (last : Char)
    (hmark : mark.toList = [last]) (hlast : last ∉ ['t', 'd', 'c']) : word ≠ front ++ mark := by
  rintro rfl
  obtain ⟨c, hc, hend⟩ := h.exists_last
  rw [String.toList_append, hmark, List.getLast?_concat] at hend
  cases hend
  exact hlast hc

/-- A word that ends in a quote asset gives no price. -/
theorem atPrice?_eq_none (h : EndsInQuote word) : atPrice? word.toList = none := by
  refine Option.eq_none_iff_forall_ne_some.2 fun number heq => ?_
  obtain ⟨hnumber, hword⟩ := atPrice?_eq_some heq
  exact h.ne_append_of_isNumber hnumber _ hword

theorem leverage?_eq_none (h : EndsInQuote word) : leverage? word.toList = none := by
  refine Option.eq_none_iff_forall_ne_some.2 fun number heq => ?_
  obtain ⟨hnumber, hword | hword⟩ := leverage?_eq_some heq
  · exact h.ne_append_of_isNumber hnumber _ hword
  · exact h.ne_append_of_last 'x' rfl (by decide) hword

theorem protection?_eq_none (h : EndsInQuote word) : protection? word.toList = none := by
  refine Option.eq_none_iff_forall_ne_some.2 fun clause heq => ?_
  obtain ⟨kind, number, rfl⟩ := protection?_eq_some heq
  generalize hwords : [word] = words at *
  have hspells := spells_of_protection? heq
  rw [hwords] at hspells
  cases hspells with
  | @protectionWord _ keyword value _ hkeyword hvalue =>
    -- such a word ends in its number, or in the percent sign behind it
    obtain ⟨hnumber, front, -, mark, hmark, rfl⟩ := hvalue
    obtain rfl : word = keyword ++ (front ++ number ++ mark) := by simpa using hwords
    rcases List.mem_pair.1 hmark with rfl | rfl
    · exact h.ne_append_of_isNumber hnumber (keyword ++ front) (by simp [String.append_assoc])
    · exact h.ne_append_of_last '%' rfl (by decide)
        (show _ = keyword ++ front ++ number ++ "%" by simp [String.append_assoc])
  | protectionValue | protectionPair => simp at hwords

/-- A word that ends in a quote asset is no keyword. -/
theorem not_mem_heads (h : EndsInQuote word) : word ∉ heads ++ notFiniteWords := by
  intro hmem
  have hall : (heads ++ notFiniteWords).all (fun word => !decide (EndsInQuote word)) = true := by
    decide +kernel
  have hnone := List.all_eq_true.1 hall word hmem
  simp [h] at hnone

/-- A word that ends in a quote asset is no keyword of a protection. -/
theorem protectionKeyword?_eq_none (h : EndsInQuote word) (next : Option String) :
    protectionKeyword? word next = none := by
  refine Option.eq_none_iff_forall_ne_some.2 fun ⟨kind, taken⟩ heq => h.not_mem_heads ?_
  have hhead : word ∈ protectionHeads := by
    rcases protectionKeyword?_eq_some heq with ⟨-, hword⟩ | ⟨-, second, -, hpair⟩
    · exact keywords_subset kind hword
    · exact mem_protectionHeads_of_pair hpair
  exact List.mem_append_left _ (List.mem_append_right _ hhead)

/-- Of the sizes only amounts of a quote asset are left. -/
theorem exists_of_size? (h : EndsInQuote word) {unit : Option SizeUnit}
    (hsize : size? word.toList = some (number, unit)) :
    IsNumber number ∧ ∃ mark ∈ quoteUnits, mark ≠ "u" ∧ word = number ++ mark := by
  obtain ⟨hnumber, ⟨-, hword⟩ | ⟨known, mark, -, hmark, hword⟩⟩ := size?_eq_some hsize
  · exact absurd (by simpa using hword) (h.ne_append_of_isNumber hnumber "")
  · refine ⟨hnumber, ?_⟩
    cases known with
    | base =>
      obtain rfl : mark = "" := by simpa [marks] using hmark
      exact absurd (by simpa using hword) (h.ne_append_of_isNumber hnumber "")
    | percent =>
      obtain rfl : mark = "%" := by simpa [marks] using hmark
      exact absurd hword (h.ne_append_of_last '%' rfl (by decide))
    | quote =>
      refine ⟨mark, hmark, ?_, hword⟩
      rintro rfl
      exact h.ne_append_of_last 'u' rfl (by decide) hword

end EndsInQuote

end Clause

/-! ## What markets are read as -/

/-- The market is digits in front of a quote asset, like an amount of it. -/
def LooksLikeAmount (market : String) : Prop :=
  ∃ digits quote : String, digits ≠ "" ∧ (∀ c ∈ digits.toList, c.isDigit = true) ∧
    quote ∈ quoteAssets {} ∧ market = digits ++ quote

namespace Clause

variable {market : String}

/-- A market that looks like an amount spells one. -/
theorem exists_spells_of_looksLikeAmount (h : LooksLikeAmount market) :
    ∃ digits, digits ≠ "" ∧ (∀ c ∈ digits.toList, c.isDigit = true) ∧
      digits.length ≤ market.length ∧ Spells (size digits .quote) [Text.lower market] := by
  obtain ⟨digits, quote, hne, hdigits, hquote, rfl⟩ := h
  obtain ⟨unit, hunit, hspells⟩ :=
    exists_spells_digits hne hdigits (List.mem_cons_of_mem _ hquote)
  have hempty : quote ≠ "" := by
    rintro rfl
    simp [quoteAssets_standard] at hquote
  obtain rfl := hunit hempty
  exact ⟨digits, hne, hdigits, by simp, hspells⟩

/-- A market in lower case ends in a quote asset. -/
theorem endsInQuote_lower (h : IsMarket market) : EndsInQuote (Text.lower market) := by
  have hlower : ∀ quote ∈ quoteAssets {},
      quote.toLower ∈ ["usdt", "busd", "usdc", "usd"] := by
    rw [quoteAssets_standard]
    decide +kernel
  obtain ⟨base, quote, hquote, heq, -⟩ := h.exists_base
  rw [lower_of_isSymbol h.isSymbol]
  exact ⟨_, hlower quote hquote, base.toList.map Char.toLower, by simp [heq]⟩

/-- A market is no size, unless it looks like an amount. -/
theorem looksLikeAmount_of_size? (h : IsMarket market) {number : String} {unit : Option SizeUnit}
    (hsize : size? (Text.lower market).toList = some (number, unit)) : LooksLikeAmount market := by
  obtain ⟨hnumber, mark, hmark, hu, hword⟩ := (endsInQuote_lower h).exists_of_size? hsize
  have hlower := lower_of_isSymbol h.isSymbol
  -- the characters of the number are those of the market, in small letters
  have hdigits : ∀ c ∈ number.toList, c.isDigit = true := by
    intro c hc
    have hmem : c ∈ market.toLower.toList := by rw [← hlower, hword]; simp [hc]
    rw [Text.toList_toLower] at hmem
    obtain ⟨d, hd, rfl⟩ := List.mem_map.1 hmem
    obtain ⟨-, hletter, -⟩ :=
      toLower_of_isUpper_or_isDigit (isUpper_or_isDigit_of_isSymbol h.isSymbol hd)
    exact hletter.resolve_left (by simp [hnumber.not_isLower hc])
  have hne : number.toList ≠ [] := by
    obtain ⟨c, cs, hcs, -⟩ := hnumber.exists_toList_eq_cons
    simp [hcs]
  have hnumberUpper : Text.upper number = number := by
    refine upper_of_isSymbol ?_
    simp only [isSymbol, Bool.and_eq_true, Bool.not_eq_true', List.isEmpty_eq_false_iff,
      List.all_eq_true, Bool.or_eq_true]
    exact ⟨hne, fun c hc => .inr (hdigits c hc)⟩
  have hmarks : ∀ mark ∈ quoteUnits, mark ≠ "u" → Text.upper mark ∈ quoteAssets {} := by
    rw [quoteAssets_standard]
    decide +kernel
  refine ⟨number, Text.upper mark, by simpa using hne, hdigits, hmarks mark hmark hu, ?_⟩
  calc market = Text.upper market := (upper_of_isSymbol h.isSymbol).symm
    _ = Text.upper (Text.lower market) := by rw [hlower, Text.upper_toLower]
    _ = number ++ Text.upper mark := by rw [hword, Text.upper_append, hnumberUpper]

/-- A market that does not look like an amount is read as a symbol, whatever stands behind it. -/
theorem read_market (h : IsMarket market) (hamount : ¬ LooksLikeAmount market)
    (behind : List String) : read market behind = (symbol market, 0) := by
  have hends := endsInQuote_lower h
  have hnone (words : List String) (hwords : words ⊆ heads ++ notFiniteWords) :
      words.contains (Text.lower market) = false := by
    have hnot := fun hmem => hends.not_mem_heads (hwords hmem)
    simpa using hnot
  have hsize : size? (Text.lower market).toList = none := by
    refine Option.eq_none_iff_forall_ne_some.2 fun ⟨number, unit⟩ hsize => hamount ?_
    exact looksLikeAmount_of_size? h hsize
  have hreduce := hnone reduceWords (by decide +kernel)
  have hmarket := hnone marketWords (by decide +kernel)
  have hlimit := hnone limitWords (by decide +kernel)
  have hleverage := hnone leverageWords (by decide +kernel)
  have hfinite := hnone notFiniteWords (by decide +kernel)
  -- no rule in front of the one for symbols fits
  simp only [read, readValue, hreduce, hmarket, hlimit, hends.atPrice?_eq_none, hleverage,
    hends.leverage?_eq_none, hends.protectionKeyword?_eq_none, hends.protection?_eq_none, hsize,
    hfinite, upper_of_isSymbol h.isSymbol, h.isSymbol, Bool.false_eq_true, if_false, if_true]

end Clause

end OrderTicket.Command
