import OrderTicket.Proofs.Command.Given
import OrderTicket.Proofs.Command.Market

/-!
# Orders that are read again

An order that was read is written as a command, and the command is read as the same order. The one
thing in the way is the market. The rules for keywords and numbers look at the lower case of a word
and the rule for symbols at its upper case. The upper case of a long s is S, but the lower case of S
is not the long s. So `100uſdt` is no amount, and the market that it names, `100USDT`, is one. With
the standard settings nothing else can happen.

* `mem_long_s_of_read`: a symbol that looks like an amount was typed with a long s.
* `exists_refused_of_looksLikeAmount`: the command of its order is refused.
* `ReadAgain`: what becomes of an order that is written and read again; `readAgain_of_read` shows it
  of all orders that were read.
-/

namespace OrderTicket.Command

open Decimal

/-! ## Where a market that looks like an amount comes from -/

/-- Behind the S of a quote asset stands a D. -/
theorem eq_D_of_append {front back digits quote : List Char} {d : Char}
    (hdigits : ∀ c ∈ digits, c.isDigit = true)
    (hquote : quote ∈ ("" :: quoteAssets {}).map String.toList)
    (h : digits ++ quote = front ++ 'S' :: d :: back) : d = 'D' := by
  -- on the digits, none of which is the S
  induction digits generalizing front with
  | nil =>
    have hall : ∀ quote ∈ ("" :: quoteAssets {}).map String.toList, ∀ i < 5,
        quote[i]? = some 'S' → quote[i + 1]? = none ∨ quote[i + 1]? = some 'D' := by decide +kernel
    have hlength : ∀ quote ∈ ("" :: quoteAssets {}).map String.toList, quote.length < 5 := by
      decide +kernel
    rw [List.nil_append] at h
    have hplace : front.length < 5 := by
      have hshort := hlength quote hquote
      rw [h, List.length_append] at hshort
      omega
    have hbehind := hall quote hquote front.length hplace (by simp [h])
    simpa [h] using hbehind
  | cons x digits ih =>
    cases front with
    | nil =>
      obtain ⟨rfl, -⟩ := List.cons.inj h
      exact absurd (hdigits 'S' List.mem_cons_self) (by decide)
    | cons y front =>
      exact ih (fun c hc => hdigits c (List.mem_cons_of_mem _ hc)) (List.cons.inj h).2

/-- A text that is digits in front of a quote asset in upper case has no other letters than those of
the quote asset, unless it has a long s. -/
theorem ascii_of_upper {raw digits quote : String} (hdigits : ∀ c ∈ digits.toList, c.isDigit = true)
    (hquote : quote ∈ "" :: quoteAssets {}) (h : Text.upper raw = digits ++ quote)
    (hlong : 'ſ' ∉ raw.toList) : ∀ c ∈ raw.toList, c.toNat < 128 := by
  intro c hc
  refine Nat.lt_of_not_le fun hlarge => ?_
  obtain ⟨front, back, hraw⟩ := List.append_of_mem hc
  have hupper : digits.toList ++ quote.toList =
      front.flatMap Text.upperChar ++ (Text.upperChar c ++ back.flatMap Text.upperChar) := by
    rw [← String.toList_append, ← h, Text.upper, String.toList_ofList, hraw, List.flatMap_append,
      List.flatMap_cons]
  have hnext {d : Char} (hpair : Text.upperChar c = ['S', d]) : d = 'D' := by
    rw [hpair] at hupper
    exact eq_D_of_append hdigits (List.mem_map_of_mem hquote) hupper
  rcases Text.upperChar_cases hlarge with rfl | ⟨d, hd, hother⟩ | hpair | hpair
  · exact hlong hc
  · -- the characters of a quote asset are none of these
    have hletters : ("" :: quoteAssets {}).all (fun quote =>
        quote.toList.all fun c => decide (¬ (128 ≤ c.toNat ∨ c = 'I' ∨ c = 'F'))) = true := by
      decide +kernel
    have hmem : d ∈ digits.toList ++ quote.toList := by simp [hupper, hd]
    rcases List.mem_append.1 hmem with hdigit | hletter
    · have hdigit := hdigits d hdigit
      obtain ⟨-, hhigh⟩ := Text.toNat_of_isDigit hdigit
      rcases hother with hother | rfl | rfl
      · omega
      · cases hdigit
      · cases hdigit
    · have hletter := List.all_eq_true.1 (List.all_eq_true.1 hletters quote hquote) d hletter
      exact of_decide_eq_true hletter hother
  · exact absurd (hnext hpair) (by decide)
  · exact absurd (hnext hpair) (by decide)

/-- A symbol that is digits in front of a quote asset, or digits alone, was typed with a long s:
without one the word would have been read as an amount. -/
theorem mem_long_s_of_read {raw digits quote : String} {behind : List String}
    (hread : (Clause.read raw behind).1 = .symbol (digits ++ quote)) (hne : digits ≠ "")
    (hdigits : ∀ c ∈ digits.toList, c.isDigit = true) (hquote : quote ∈ "" :: quoteAssets {}) :
    'ſ' ∈ raw.toList := by
  by_contra hlong
  obtain ⟨-, hupper⟩ := Clause.isSymbol_of_read hread
  have hascii := ascii_of_upper hdigits hquote hupper.symm hlong
  obtain ⟨unit, -, hspells⟩ := Clause.exists_spells_digits hne hdigits hquote
  rw [hupper, Text.lower_upper hascii] at hspells
  exact hspells.read_ne_symbol hread

/-- The standard quote asset behind a word is the only one that the market ends in with the word in
front of it. -/
theorem eq_of_append_quote {word digits quote : String} (hquote : quote ∈ quoteAssets {})
    (h : word ++ Text.upper ({} : CommandSettings).quoteAsset = digits ++ quote) :
    word = digits := by
  have hstandard : Text.upper ({} : CommandSettings).quoteAsset = "USDT" := by decide +kernel
  rw [hstandard] at h
  have hlast := congrArg (·.toList.getLast?) h
  have hends : ∀ quote ∈ quoteAssets {}, quote ≠ "USDT" →
      quote.toList.getLast? = some 'D' ∨ quote.toList.getLast? = some 'C' := by decide +kernel
  by_cases htether : quote = "USDT"
  · rw [htether] at h
    exact (String.append_left_inj "USDT").1 h
  · rcases hends quote hquote htether with hend | hend <;> simp [hend] at hlast

/-- A market that looks like an amount was typed as it is, but for letter case, with a long s. -/
theorem long_s_of_looksLikeAmount {raw word market : String} {behind : List String}
    (hread : (Clause.read raw behind).1 = .symbol word)
    (hmarket : resolveSymbol? {} word = some market) (hamount : LooksLikeAmount market) :
    Text.upper raw = market ∧ 'ſ' ∈ raw.toList := by
  obtain ⟨digits, quote, hne, hdigits, hquote, rfl⟩ := hamount
  obtain ⟨hsymbol, rfl⟩ := Clause.isSymbol_of_read hread
  obtain ⟨-, base, -, -, ⟨heq, -⟩ | ⟨-, heq⟩⟩ := namesMarket_of_resolve hsymbol hmarket
  · rw [← heq] at hread
    exact ⟨heq.symm, mem_long_s_of_read hread hne hdigits (List.mem_cons_of_mem _ hquote)⟩
  · -- the quote asset was put behind digits, which are an amount without a long s
    exfalso
    obtain rfl := eq_of_append_quote hquote heq.symm
    have hbare : (Clause.read raw behind).1 = .symbol (Text.upper raw ++ "") := by
      simpa using hread
    have hlong : 'ſ' ∈ raw.toList := mem_long_s_of_read hbare hne hdigits List.mem_cons_self
    have hmem : 'S' ∈ (Text.upper raw).toList := by
      rw [Text.upper, String.toList_ofList]
      exact List.mem_flatMap.2 ⟨'ſ', hlong, by decide +kernel⟩
    exact absurd (hdigits 'S' hmem) (by decide)

/-! ## Its command is refused -/

/-- A written number of up to a hundred digits is not huge. -/
theorem Writes.not_huge {s : String} {x : Decimal} (h : Writes s x)
    (hlt : |x.value| < 10 ^ 100) : ¬ Huge s := by
  rintro ⟨y, hy, hlarge⟩
  rw [h.value_eq hy] at hlarge
  exact not_lt.2 (pow_maxExponent_le_overflowThreshold.trans hlarge) (lt_maxExponent hlt.le)

/-- The numbers in the clauses of an order are not huge. -/
theorem not_huge_of_mem_clausesOf {settings : CommandSettings} {order : Order}
    (h : Fillable settings order) {clause : Clause} (hclause : clause ∈ clausesOf order)
    {number : String} (hnumber : clause.typedNumber? = some number) : ¬ Huge number := by
  have hsmall {x : Decimal} (hx : Writable x) : |x.value| < 10 ^ 100 :=
    (hx.belowLimit.abs_lt hx.isFinite).trans (by norm_num)
  have hwrites {x : Decimal} (hx : Writable x) : ¬ Huge x.canonical :=
    (writes_canonical hx.holdable).not_huge (hsmall hx)
  simp only [clausesOf, List.mem_cons, List.mem_append, Option.mem_toList,
    Option.map_eq_some_iff] at hclause
  rcases hclause with rfl | ⟨k, hk, rfl⟩ | ⟨x, hx, rfl⟩ | ⟨x, hx, rfl⟩ | ⟨x, hx, rfl⟩ | hreduce |
    ⟨x, hx, rfl⟩
  case inr.inr.inr.inr.inr.inl =>
    -- the clause without a number
    split at hreduce
    · obtain rfl := List.mem_singleton.1 hreduce
      cases hnumber
    · cases hreduce
  all_goals cases hnumber
  · exact hwrites h.size
  · obtain ⟨hone, -, hlt⟩ := h.leverage k hk
    exact (writes_toString k).not_huge (hsmall (writable_ofInt hone hlt))
  · exact hwrites (h.stopLoss x hx).1
  · exact hwrites (h.takeProfit x hx)
  · exact hwrites (h.trailing x hx).1
  · exact hwrites (h.limitPrice x hx)

variable {text : String} {reading : Reading} {order : Order}

/-- The highest leverage of the standard settings is short. -/
theorem isShort_maxLeverage_standard : Integer.IsShort ({} : CommandSettings).maxLeverage :=
  Integer.isShort_of_lt (k := 3) (by decide) (by decide)

/-- The command of an order whose market looks like an amount has no symbol, and it is refused. -/
theorem exists_refused_of_looksLikeAmount (h : read {} text = .ok reading)
    (horder : reading.order = some order) (hmarket : IsMarket order.symbol)
    (hamount : LooksLikeAmount order.symbol) :
    ∃ command again, order.command = .ok command ∧ read {} command = .ok again ∧
      again.order = none := by
  have hfillable := fillable_of_read h horder
  obtain ⟨command, hcommand⟩ := exists_command hfillable
  have hwords :=
    words_command hfillable (limit_iff_of_read h horder) hmarket.isSymbol hcommand
  obtain ⟨digits, hne, hdigits, hlength, hspells⟩ :=
    Clause.exists_spells_of_looksLikeAmount hamount
  have hclauses : Clause.readAll (order.symbol :: (termsOf order ++ limitOf order)) =
      .size digits .quote :: clausesOf order := by
    simpa using readAll_said hfillable.holdable (.term hspells)
      (nofun : ∀ first next, ([] : List String).head? = some next → _)
  rcases read_decided_or_fault {} command with ⟨again, hagain, -⟩ | ⟨fault, -, hfault⟩
  · refine ⟨command, again, hcommand, hagain,
      Option.eq_none_iff_forall_ne_some.2 fun other hother => ?_⟩
    -- an order would have a symbol, which one of the clauses gives
    obtain ⟨action, words, draft, hagainWords, -, -, hmade, hgiven⟩ :=
      exists_given_of_read hagain hother
    obtain ⟨-, symbol, size, hsymbol, -, -⟩ := order?_eq_some hmade
    obtain ⟨clause, hclause, hgives⟩ := hgiven (.symbol symbol) hsymbol
    obtain ⟨-, rfl⟩ := List.cons.inj (hwords.symm.trans hagainWords)
    rw [hclauses] at hclause
    cases hgives with
    | symbol => simp [clausesOf] at hclause
  · exfalso
    rw [clausesIn, hwords, List.tail_cons, hclauses] at hfault
    cases hfault with
    | overflow hclause htyped hhuge =>
      rcases List.mem_cons.1 hclause with rfl | hclause
      · -- the digits are no more than the market has
        cases htyped
        obtain ⟨n, hn, hwrites⟩ := exists_writes_digits hne hdigits
        refine hwrites.not_huge ?_ hhuge
        have hpow : (10 : ℕ) ^ digits.length ≤ 10 ^ 100 :=
          Nat.pow_le_pow_right (by norm_num) (by have := hmarket.length_le; omega)
        have habs : |(finite false n 0).value| = n := by simp [value, magnitude]
        rw [habs]
        exact_mod_cast hn.trans_le hpow
      · exact not_huge_of_mem_clausesOf hfillable hclause htyped hhuge
    | integerTooLong _ _ hlong => exact hlong isShort_maxLeverage_standard

/-! ## All orders that are read -/

/-- A command for a market has an order for it, if a check says so. -/
theorem exists_order_of_any (text market : String)
    (h : (read {} text).toOption.any (fun reading =>
      reading.order.any (·.symbol == market)) = true) :
    ∃ reading order, read {} text = .ok reading ∧ reading.order = some order ∧
      order.symbol = market := by
  cases hread : read {} text with
  | error fault => simp [hread, Except.toOption] at h
  | ok reading =>
    cases horder : reading.order with
    | none => simp [hread, Except.toOption, horder] at h
    | some order =>
      exact ⟨reading, order, rfl, horder, by simpa [hread, Except.toOption, horder] using h⟩

/-- The market of the order is read as a symbol wherever it stands and names itself, and the command
of the order is read as the same order. -/
structure Stable (order : Order) : Prop where
  /-- No rule in front of the one for symbols claims the market. -/
  claimed : ∀ behind, Clause.read order.symbol behind = (.symbol order.symbol, 0)
  /-- The market names itself. -/
  resolved : resolveSymbol? {} order.symbol = some order.symbol
  /-- The order is read back from its command. -/
  read_back : ∃ command again parsed, order.command = .ok command ∧
    read {} command = .ok again ∧ again.ok = true ∧ again.order = some parsed ∧
      order.same parsed = .ok true

/-- What becomes of an order that was read from a text when it is written and read again. -/
structure ReadAgain (text : String) (order : Order) : Prop where
  /-- In any case the market names itself. -/
  resolved : resolveSymbol? {} order.symbol = some order.symbol
  /-- Unless the market looks like an amount, the order is stable. -/
  kept : ¬ LooksLikeAmount order.symbol → Stable order
  /-- If it does, then it was typed with a long s; it is read as an amount wherever it stands, and
  the command of the order is refused. -/
  lost : LooksLikeAmount order.symbol →
    (∃ raw ∈ Text.words text, Text.upper raw = order.symbol ∧ 'ſ' ∈ raw.toList) ∧
      (∀ behind, ∃ digits, Clause.read order.symbol behind = (.size digits .quote, 0)) ∧
        ∃ command again, order.command = .ok command ∧ read {} command = .ok again ∧
          again.order = none

/-- An order that can be read is read back from its command. -/
theorem Readable.stable (h : Readable {} order)
    (hclaimed : ∀ behind, Clause.read order.symbol behind = (.symbol order.symbol, 0)) :
    Stable order where
  claimed := hclaimed
  resolved := h.symbol_resolved
  read_back := read_command h

/-- With the standard settings every order that is read from a text is read back from its command,
but for those whose market looks like an amount and was typed with a long s. -/
theorem readAgain_of_read (h : read {} text = .ok reading) (horder : reading.order = some order) :
    ReadAgain text order := by
  obtain ⟨front, raw, behind, word, hwords, hread, hword⟩ := exists_symbol_of_read h horder
  have hresolved := resolveSymbol?_again hword
  have hmarket := isMarket_of_resolve (Clause.isSymbol_of_read hread).1 hword
  refine ⟨hresolved, fun hamount => ?_, fun hamount => ⟨?_, fun behind => ?_, ?_⟩⟩
  · have hclaimed := Clause.read_market hmarket hamount
    have hsymbol : (Clause.read order.symbol []).1 = .symbol order.symbol := by rw [hclaimed]
    exact (readable_of_read h horder hsymbol hresolved).stable hclaimed
  · exact ⟨raw, by simp [hwords], long_s_of_looksLikeAmount hread hword hamount⟩
  · obtain ⟨digits, -, -, -, hspells⟩ := Clause.exists_spells_of_looksLikeAmount hamount
    have hsize : Clause.read order.symbol ([] ++ behind) = (.size digits .quote, 0) :=
      Clause.read_of_spells hspells (by simp)
    exact ⟨digits, hsize⟩
  · exact exists_refused_of_looksLikeAmount h horder hmarket hamount

/-- A text that is read as an order for a market with digits in its base. -/
theorem readAgain_sample : ∃ reading order,
    read {} "/sell 1000pepe 25u x3 sl2%" = .ok reading ∧ reading.order = some order ∧
      order.symbol = "1000PEPEUSDT" ∧ ReadAgain "/sell 1000pepe 25u x3 sl2%" order := by
  obtain ⟨reading, order, hread, horder, hsymbol⟩ := exists_order_of_any
    "/sell 1000pepe 25u x3 sl2%" "1000PEPEUSDT" (by decide +kernel)
  exact ⟨reading, order, hread, horder, hsymbol, readAgain_of_read hread horder⟩

/-- An order that was read need not be stable: the command of one with a long s has two amounts and
no symbol. -/
theorem not_stable_long_s : ¬ ∀ (text : String) (reading : Reading) (order : Order),
    read {} text = .ok reading → reading.order = some order → Stable order := by
  intro hall
  obtain ⟨reading, order, hread, horder, hsymbol⟩ := exists_order_of_any
    "buy 100uſdt 5" "100USDT" (by decide +kernel)
  have hclaimed := (hall _ reading order hread horder).claimed []
  have hamount : Clause.read "100USDT" [] = (.size "100" .quote, 0) := by decide +kernel
  rw [hsymbol, hamount] at hclaimed
  cases hclaimed

end OrderTicket.Command
