import OrderTicket.Order
import OrderTicket.Proofs.Command.Draft
import OrderTicket.Proofs.Command.Group
import OrderTicket.Proofs.Decimal.Numeral
import OrderTicket.Proofs.Integer

/-!
# The words of a written command

Orders and selections are written as commands in the same way: the action, the symbol, and a word
for each term. This module shows what is read from these words. A number is written as a numeral of
the same value, a term is written as one word that spells its clause, and no word joins the one in
front of it. So the words behind a symbol are read as the clauses of the order.

* `Writes`: the texts that a number is written as; `Writes.value_eq` and `Writes.accepted` compare
  the number that is read with the one that was written.
* `termsOf`, `limitOf`, `clausesOf`: the words of an order behind the symbol and their clauses.
* `exists_commonTerms`: a command can be put together from terms if its leverage is short, and only
  then (`leverageTerm_failsOnly`).
* `words_commonTerms`: the words of a command that was put together from terms.
* `readAll_written`: the clauses of these words; `not_symbol_of_mem` shows that none of the words is
  ever read as a symbol.
-/

namespace OrderTicket.Command

open Decimal

/-! ## Numbers -/

/-- A finite number with an exponent that a number can have at all. -/
def Holdable (x : Decimal) : Prop :=
  ∃ n c e, x = finite n c e ∧ -(2 * exponentLimit - 1) ≤ e

theorem Holdable.isFinite {x : Decimal} (h : Holdable x) : x.isFinite = true := by
  obtain ⟨n, c, e, rfl, -⟩ := h
  rfl

/-- The text is a numeral, perhaps with a minus sign, that has the value of `x` and few enough
decimals to be read. -/
def Writes (s : String) (x : Decimal) : Prop :=
  ∃ (negative : Bool) (numeral : Numeral), s = .ofList (signText negative ++ numeral.text) ∧
    (numeral.signed negative).value = x.value ∧
      (numeral.fraction.length : ℤ) ≤ 2 * exponentLimit - 1

/-- A numeral may be typed, with or without a minus sign. -/
theorem isNumber_signed_text (negative : Bool) (numeral : Numeral) :
    IsNumber (.ofList (signText negative ++ numeral.text)) := by
  have hdigits {ds : List Char} (hds : ∀ c ∈ ds, c.isDigit = true) :
      ∀ c ∈ ds, Text.isDigit c = true := fun c hc => Text.isDigit_of_isDigit (hds c hc)
  have hunsigned : splitUnsigned? numeral.text = some (numeral.text, []) := by
    have hwhole := hdigits fun c hc => numeral.isDigit_whole hc
    have hfraction := hdigits fun c hc => numeral.isDigit_fraction hc
    have hend : ∀ c, ([] : List Char).head? = some c → Text.isDigit c = false := by simp
    have hpoint : ∀ c, ('.' :: numeral.fraction).head? = some c → Text.isDigit c = false := by
      rintro c ⟨⟩
      decide
    rw [Numeral.text]
    split
    · -- without a point the digits end where the text does
      obtain ⟨htake, hdrop⟩ := Text.takeWhile_append_of_head hwhole hend
      rw [List.append_nil] at htake hdrop ⊢
      simp [splitUnsigned?, htake, hdrop, numeral.whole_ne_nil]
    · obtain ⟨htake, hdrop⟩ := Text.takeWhile_append_of_head hwhole hpoint
      obtain ⟨htake', hdrop'⟩ := Text.takeWhile_append_of_head hfraction hend
      rw [List.append_nil] at htake' hdrop'
      simp [splitUnsigned?, htake, hdrop, htake', hdrop', numeral.whole_ne_nil]
  have hsign : splitSign (signText negative ++ numeral.text) =
      (signText negative, numeral.text) := by
    cases negative with
    | true => rfl
    | false =>
      obtain ⟨c, cs, htext, hc⟩ := numeral.exists_text_eq_cons
      obtain ⟨hminus, hplus⟩ := ne_sign_of_isDigit_or (.inl (Text.isDigit_of_isDigit hc))
      rw [htext]
      exact splitSign_of_ne hminus hplus
  rw [IsNumber, String.toList_ofList, splitNumber?, hsign]
  simp [hunsigned]

/-- The canonical text of a number that can be held writes that number. -/
theorem writes_canonical {x : Decimal} (h : Holdable x) : Writes x.canonical x := by
  obtain ⟨n, c, e, rfl, he⟩ := h
  obtain ⟨numeral, htext, hvalue, hlength⟩ := exists_numeral_canonical n c e
  have hlimit : exponentLimit = 999999999999999999 := rfl
  exact ⟨n, numeral, htext, hvalue, by omega⟩

theorem writes_toString (i : ℤ) : Writes (toString i) (.ofInt i) := by
  obtain ⟨n, numeral, htext, hfraction, hvalue⟩ := exists_numeral_toString i
  refine ⟨n, numeral, htext, hvalue.trans (value_ofInt i).symm, ?_⟩
  rw [hfraction]
  decide

namespace Writes

variable {s : String} {x y : Decimal}

/-- A written number is one that may be typed. -/
theorem isNumber (h : Writes s x) : IsNumber s := by
  obtain ⟨negative, numeral, rfl, -, -⟩ := h
  exact isNumber_signed_text negative numeral

/-- What is read from a written number has the value that was written. -/
theorem value_eq (h : Writes s x) (hy : ofText? s = some y) : y.value = x.value := by
  obtain ⟨negative, numeral, rfl, hvalue, -⟩ := h
  rw [numeral.eq_signed_of_ofText? hy, hvalue]

/-- A written number is read, unless it has more digits than a number can have at all. -/
theorem exists_read (h : Writes s x) (hx : |x.value| < 10 ^ exponentLimit) :
    ∃ y, ofText? s = some y ∧ y.value = x.value := by
  obtain ⟨negative, numeral, rfl, hvalue, hlength⟩ := h
  refine ⟨numeral.signed negative, numeral.ofText?_text (fun hne => ?_) hlength, hvalue⟩
  -- the leading digit stands below the limit
  rw [← hvalue, Numeral.signed, abs_value_finite] at hx
  have hleading := (zpow_lt_zpow_iff_right₀ (by norm_num : (1 : ℚ) < 10)).1
    ((le_magnitude hne (-numeral.fraction.length)).trans_lt hx)
  exact hleading.le

/-- A written number below the limit of typed numbers is accepted where it is read. -/
theorem accepted (h : Writes s x) (hx : x.isFinite = true) (hlimit : BelowLimit x) :
    ∃ y, Accepted s y := by
  have hlt : |x.value| < 10 ^ exponentLimit := by
    have hle : (10 : ℚ) ^ (15 : ℤ) ≤ 10 ^ exponentLimit :=
      zpow_le_zpow_right₀ (by norm_num) (by decide)
    exact (hlimit.abs_lt hx).trans_le (by exact_mod_cast hle)
  obtain ⟨y, hy, hvalue⟩ := h.exists_read hlt
  exact ⟨y, hy, hlimit.congr hx (isFinite_of_ofText? hy) hvalue⟩

/-- A written number that is accepted is below the limit of typed numbers. -/
theorem belowLimit (h : Writes s x) (hx : x.isFinite = true) (hy : Accepted s y) :
    BelowLimit x :=
  BelowLimit.congr hy.lt_limit hy.isFinite hx (h.value_eq hy.read).symm

end Writes

/-! ## Words in lower case -/

/-- Whether a character may stand around a number: neither a capital letter nor a blank, and of
ASCII. -/
def isMark (c : Char) : Bool :=
  decide (Text.IsLow c) && !Text.isBlank c

/-- A mark is a character in lower case that is not blank. -/
theorem isMark_iff {c : Char} : isMark c = true ↔ Text.IsLow c ∧ Text.isBlank c = false := by
  simp [isMark]

/-- The text is one word without capital letters. -/
structure IsPlain (word : String) : Prop where
  /-- There is a character. -/
  ne_empty : word ≠ ""
  /-- All characters are digits, lower case letters and marks. -/
  isMark : ∀ c ∈ word.toList, isMark c = true

namespace IsPlain

variable {word : String}

/-- A word without capital letters is its own lower case. -/
theorem lower_eq_self (h : IsPlain word) : Text.lower word = word :=
  Text.lower_eq_self fun c hc => (isMark_iff.1 (h.isMark c hc)).1

/-- A word without blanks is the only word of its text. -/
theorem words_eq (h : IsPlain word) : Text.words word = [word] :=
  Text.words_of_not_isBlank h.ne_empty fun c hc => (isMark_iff.1 (h.isMark c hc)).2

end IsPlain

/-- A written number with marks and lower case letters around it is one word. -/
theorem Writes.isPlain {s : String} {x : Decimal} (h : Writes s x) (front back : String)
    (hmarks : (front.toList ++ back.toList).all Command.isMark = true) :
    IsPlain (front ++ s ++ back) := by
  have hnumber : s.toList ≠ [] ∧ ∀ c ∈ s.toList, Command.isMark c = true := by
    -- The empty text has only plain characters, so that the number is not empty has to be said.
    obtain ⟨c, cs, hcs, -⟩ := h.isNumber.exists_toList_eq_cons
    obtain ⟨negative, numeral, rfl, -, -⟩ := h
    refine ⟨by rw [hcs]; exact List.cons_ne_nil c cs, fun d hd => ?_⟩
    rw [String.toList_ofList] at hd
    rcases numeral.mem_signed_text hd with hdigit | rfl | rfl
    · exact isMark_iff.2
        ⟨Text.isLow_of_isDigit hdigit, (Numeral.ne_of_isDigit_or (.inl hdigit)).1⟩
    · decide
    · decide
  simp only [List.all_append, Bool.and_eq_true, List.all_eq_true] at hmarks
  refine ⟨fun hempty => hnumber.1 ?_, fun d hd => ?_⟩
  · have hnil := congrArg String.toList hempty
    simp only [String.toList_append, String.toList_empty, List.append_eq_nil_iff] at hnil
    exact hnil.1.2
  · simp only [String.toList_append, List.mem_append] at hd
    rcases hd with (hd | hd) | hd
    · exact hmarks.1 d hd
    · exact hnumber.2 d hd
    · exact hmarks.2 d hd

/-! ## Terms -/

/-- The words of an order's command between the symbol and the limit price. -/
def termsOf (order : Order) : List String :=
  order.size.render :: (Order.term order.leverage (fun x => "x" ++ toString x) ++
    (Order.percentTerm Protection.stopLoss.keyword order.stopLoss ++
      (Order.percentTerm Protection.takeProfit.keyword order.takeProfit ++
        (Order.percentTerm Protection.trailing.keyword order.trailing ++
          if order.reduceOnly then ["reduce"] else []))))

/-- The words of the limit price. -/
def limitOf (order : Order) : List String :=
  (order.limitPrice.map fun x => ["limit", x.canonical]).getD []

/-- The clauses of an order's command behind the symbol. -/
def clausesOf (order : Order) : List Clause :=
  .size order.size.amount.canonical order.size.unit ::
    ((order.leverage.map fun x => Clause.leverage (toString x)).toList ++
      ((order.stopLoss.map fun x => Clause.protection .stopLoss x.canonical).toList ++
        ((order.takeProfit.map fun x => Clause.protection .takeProfit x.canonical).toList ++
          ((order.trailing.map fun x => Clause.protection .trailing x.canonical).toList ++
            ((if order.reduceOnly then [Clause.reduce] else []) ++
              (order.limitPrice.map fun x => Clause.limit (some x.canonical)).toList)))))

/-- The numbers of an order, other than its leverage. -/
def numbersOf (order : Order) : List Decimal :=
  order.size.amount :: (order.limitPrice.toList ++ order.stopLoss.toList ++
    order.takeProfit.toList ++ order.trailing.toList)

/-- The word is in lower case and spells the clause by itself. -/
structure IsTerm (word : String) (clause : Clause) : Prop where
  /-- It is one word in lower case. -/
  isPlain : IsPlain word
  /-- It spells the clause. -/
  spells : Clause.Spells clause [word]

variable {order : Order}

/-- A rendered size is the term of its clause. -/
theorem isTerm_size {x : Decimal} (h : Holdable x) (unit : SizeUnit) :
    IsTerm (Size.render ⟨unit, x⟩) (.size x.canonical unit) := by
  have hwrites := writes_canonical h
  have hplain : IsPlain ("" ++ x.canonical ++ unit.suffix) :=
    hwrites.isPlain "" unit.suffix (by cases unit <;> decide +kernel)
  have hmark : unit.suffix ∈ Clause.marks unit := by cases unit <;> decide +kernel
  exact ⟨by simpa [Size.render] using hplain, .size hmark hwrites.isNumber⟩

theorem isTerm_leverage (i : ℤ) : IsTerm ("x" ++ toString i) (.leverage (toString i)) := by
  have hwrites := writes_toString i
  have hplain : IsPlain ("x" ++ toString i ++ "") :=
    hwrites.isPlain "x" "" (by decide +kernel)
  exact ⟨by simpa using hplain, .leverageBehind hwrites.isNumber⟩

theorem isTerm_protection {x : Decimal} (h : Holdable x) (kind : Protection) :
    IsTerm (kind.keyword ++ x.canonical ++ "%") (.protection kind x.canonical) := by
  have hwrites := writes_canonical h
  refine ⟨hwrites.isPlain kind.keyword "%" (by cases kind <;> decide +kernel), ?_⟩
  have hvalue : IsPercentage (x.canonical ++ "%") x.canonical :=
    ⟨hwrites.isNumber, "", by simp, "%", by simp, by simp⟩
  have hword : kind.keyword ∈ kind.keywords := by cases kind <;> decide +kernel
  rw [String.append_assoc]
  exact .protectionWord hword hvalue

theorem isTerm_reduce : IsTerm "reduce" .reduce :=
  ⟨⟨by decide +kernel, List.all_eq_true.1 (by decide +kernel)⟩, .reduce (by decide +kernel)⟩

/-- The price behind the limit keyword is a word of its own, which would be a size by itself. -/
theorem isTerm_price {x : Decimal} (h : Holdable x) :
    IsTerm x.canonical (.size x.canonical .base) := by
  simpa [Size.render, SizeUnit.suffix] using isTerm_size h .base

theorem isPlain_limit : IsPlain "limit" :=
  ⟨by decide +kernel, List.all_eq_true.1 (by decide +kernel)⟩

/-- The words of a term are those of its clause, if there is one. -/
theorem forall₂_term {α : Type} {value : Option α} {write : α → String} {clause : α → Clause}
    (h : ∀ x, value = some x → IsTerm (write x) (clause x)) :
    List.Forall₂ IsTerm (Order.term value write) (value.map clause).toList := by
  cases value with
  | none => exact .nil
  | some x => exact .cons (h x rfl) .nil

/-- Without a limit price each clause of an order is one word. -/
theorem forall₂_termsOf (h : ∀ x ∈ numbersOf order, Holdable x) :
    List.Forall₂ IsTerm (termsOf order) (clausesOf { order with limitPrice := none }) := by
  have hprotection (kind : Protection) {value : Option Decimal}
      (hvalue : ∀ x, value = some x → Holdable x) :
      List.Forall₂ IsTerm (Order.percentTerm kind.keyword value)
        (value.map fun x => Clause.protection kind x.canonical).toList :=
    forall₂_term fun x hx => isTerm_protection (hvalue x hx) kind
  have hreduce : List.Forall₂ IsTerm (if order.reduceOnly then ["reduce"] else [])
      ((if order.reduceOnly then [Clause.reduce] else []) ++ []) := by
    cases order.reduceOnly with
    | true => exact .cons isTerm_reduce .nil
    | false => exact .nil
  refine .cons (isTerm_size (h _ List.mem_cons_self) _) ?_
  refine List.rel_append (forall₂_term fun x _ => isTerm_leverage x) ?_
  refine List.rel_append (hprotection _ fun x hx => h x (by simp [numbersOf, hx])) ?_
  refine List.rel_append (hprotection _ fun x hx => h x (by simp [numbersOf, hx])) ?_
  exact List.rel_append (hprotection _ fun x hx => h x (by simp [numbersOf, hx])) hreduce

/-- The clause of the limit price stands behind the others. -/
theorem clausesOf_eq (order : Order) :
    clausesOf order = clausesOf { order with limitPrice := none } ++
      (order.limitPrice.map fun x => Clause.limit (some x.canonical)).toList := by
  simp [clausesOf]

/-! ## Words -/

/-- A leverage that is short is written as one word. -/
theorem leverageTerm_eq {leverage : Option ℤ} (h : ∀ x, leverage = some x → Integer.IsShort x) :
    Order.leverageTerm leverage = .ok (Order.term leverage fun x => "x" ++ toString x) := by
  cases leverage with
  | none => rfl
  | some x =>
    rw [Order.leverageTerm, Integer.text_of_isShort (h x rfl)]
    rfl

/-- The only leverage that is not written is one with too many digits. -/
theorem leverageTerm_failsOnly (leverage : Option ℤ) :
    FailsOnly (Order.leverageTerm leverage) fun fault =>
      fault = .integerTooLong ∧ ∃ x, leverage = some x ∧ ¬ Integer.IsShort x := by
  cases leverage with
  | none => exact .ok
  | some x =>
    refine .map fun fault hfault => ?_
    obtain ⟨rfl, hlong⟩ := Integer.text_eq_error_iff.1 hfault
    exact ⟨rfl, x, rfl, hlong⟩

/-- What is written for a leverage is its term. -/
theorem leverageTerm_eq_ok {leverage : Option ℤ} {terms : List String}
    (h : Order.leverageTerm leverage = .ok terms) :
    terms = Order.term leverage fun x => "x" ++ toString x := by
  cases leverage with
  | none => exact (Except.ok.inj h).symm
  | some x =>
    obtain ⟨number, hnumber, rfl⟩ := map_eq_ok h
    rw [(Integer.text_eq_ok hnumber).2]
    rfl

/-- The terms that commands have in common can be written if the leverage is short. -/
theorem exists_commonTerms (order : Order) (raw : String)
    (h : ∀ x, order.leverage = some x → Integer.IsShort x) :
    ∃ terms, Order.commonTerms order.side raw order.size order.leverage order.stopLoss
      order.takeProfit order.trailing order.reduceOnly = .ok terms := by
  rw [Order.commonTerms, bind_of_eq_ok (leverageTerm_eq h)]
  exact ⟨_, rfl⟩

theorem flatMap_words {texts : List String} (h : ∀ text ∈ texts, Text.words text = [text]) :
    texts.flatMap Text.words = texts := by
  rw [List.flatMap_congr h, List.flatMap_singleton']

/-- The terms that commands have in common are the action, the symbol, and the terms of an order. -/
theorem words_commonTerms (h : ∀ x ∈ numbersOf order, Holdable x) {raw : String}
    (hraw : Text.words raw = [raw]) {terms : List String}
    (hterms : Order.commonTerms order.side raw order.size order.leverage order.stopLoss
      order.takeProfit order.trailing order.reduceOnly = .ok terms) :
    terms.flatMap Text.words = ("/" ++ order.side.name) :: raw :: termsOf order := by
  have hcommon : terms = ("/" ++ order.side.name) :: raw :: termsOf order := by
    obtain ⟨leverage, hleverage, hterms⟩ := bind_eq_ok hterms
    obtain rfl := leverageTerm_eq_ok hleverage
    obtain rfl := Except.ok.inj hterms
    simp only [termsOf, Protection.keyword, List.cons_append, List.nil_append, List.append_assoc]
  have hside : Text.words ("/" ++ order.side.name) = ["/" ++ order.side.name] := by
    cases order.side <;> decide +kernel
  rw [hcommon, flatMap_words]
  rintro word hword
  rcases List.mem_cons.1 hword with rfl | hword
  · exact hside
  rcases List.mem_cons.1 hword with rfl | hword
  · exact hraw
  · obtain ⟨clause, -, hterm⟩ := Clause.exists_mem_of_forall₂ (forall₂_termsOf h) hword
    exact hterm.isPlain.words_eq

/-! ## Clauses -/

/-- The groups of an order's command behind the symbol. -/
def groupsOf (order : Order) : List (List String) :=
  (termsOf order).map ([·]) ++ (order.limitPrice.map fun x => ["limit", x.canonical]).toList

/-- The groups of an order hold its terms and its limit price. -/
theorem flatten_groupsOf (order : Order) :
    (groupsOf order).flatten = termsOf order ++ limitOf order := by
  have hterms : ((termsOf order).map ([·])).flatten = termsOf order := by
    rw [← List.flatMap_def, List.flatMap_singleton']
  cases hprice : order.limitPrice <;> simp [groupsOf, limitOf, hprice, hterms]

/-- The groups of an order say its clauses. -/
theorem forall₂_groupsOf (h : ∀ x ∈ numbersOf order, Holdable x) :
    List.Forall₂ Clause.Says (groupsOf order) (clausesOf order) := by
  rw [clausesOf_eq]
  refine List.rel_append ?_ ?_
  · rw [List.forall₂_map_left_iff]
    refine (forall₂_termsOf h).imp fun word clause hterm => .term ?_
    simpa [hterm.isPlain.lower_eq_self] using hterm.spells
  · cases hprice : order.limitPrice with
    | none => exact .nil
    | some x =>
      have hx := h x (by simp [numbersOf, hprice])
      refine .cons (.term ?_) .nil
      simp only [List.map_cons, List.map_nil, isPlain_limit.lower_eq_self,
        (isTerm_price hx).isPlain.lower_eq_self]
      exact .limit (by decide +kernel) (writes_canonical hx).isNumber

/-- No group behind the symbol joins the one in front of it. -/
theorem not_joins_of_mem_groupsOf (h : ∀ x ∈ numbersOf order, Holdable x) {group : List String}
    (hgroup : group ∈ groupsOf order) {first word : String} (hword : group.head? = some word) :
    ¬ Clause.Joins first (Text.lower word) := by
  obtain ⟨clause, hclause, hsays⟩ := Clause.exists_mem_of_forall₂ (forall₂_groupsOf h) hgroup
  cases hsays with
  | term hspells =>
    cases group with
    | nil => cases hword
    | cons head rest =>
      cases hword
      exact Clause.Spells.not_joins_head hspells
  | symbol =>
    -- an order's clauses behind the symbol are none
    simp [clausesOf] at hclause

/-- Behind a word that says a clause by itself, the words of an order are read as its clauses, and
then what is behind them. -/
theorem readAll_said (h : ∀ x ∈ numbersOf order, Holdable x) {raw : String} {clause : Clause}
    (hraw : Clause.Says [raw] clause) {rest : List String}
    (hrest : ∀ first next, rest.head? = some next → ¬ Clause.Joins first (Text.lower next)) :
    Clause.readAll (raw :: (termsOf order ++ limitOf order ++ rest)) =
      clause :: clausesOf order ++ Clause.readAll rest := by
  have hsays : List.Forall₂ Clause.Says ([raw] :: groupsOf order) (clause :: clausesOf order) :=
    .cons hraw (forall₂_groupsOf h)
  have hfree : ∀ next ∈ groupsOf order ++ [rest], ∀ group, Clause.Apart group next := by
    rintro next hnext group first head rfl hhead
    rcases List.mem_append.1 hnext with hnext | hnext
    · exact not_joins_of_mem_groupsOf h hnext hhead
    · obtain rfl := List.mem_singleton.1 hnext
      exact hrest _ _ hhead
  have hapart : ([raw] :: (groupsOf order ++ [rest])).IsChain Clause.Apart :=
    List.Pairwise.isChain (List.pairwise_cons.2 ⟨fun next hnext => hfree next hnext _,
      List.pairwise_of_forall_mem_list fun group _ next hnext => hfree next hnext group⟩)
  have hread := Clause.readAll_flatten_append hsays hapart
  rwa [List.flatten_cons, flatten_groupsOf] at hread

/-- The words behind a symbol are read as the clauses of the order, and then what is behind them. -/
theorem readAll_written (h : ∀ x ∈ numbersOf order, Holdable x) {raw word : String}
    (hsymbol : Clause.read raw [] = (.symbol word, 0)) {rest : List String}
    (hrest : ∀ first next, rest.head? = some next → ¬ Clause.Joins first (Text.lower next)) :
    Clause.readAll (raw :: (termsOf order ++ limitOf order ++ rest)) =
      .symbol word :: clausesOf order ++ Clause.readAll rest :=
  readAll_said h (.symbol hsymbol) hrest

/-- No word behind the symbol is ever read as a symbol, also where the words in front of it are read
in another way. -/
theorem read_ne_symbol (h : ∀ x ∈ numbersOf order, Holdable x) {raw : String}
    (hraw : raw ∈ termsOf order ++ limitOf order ++ ["limit"]) {behind : List String}
    {word : String} : (Clause.read raw behind).1 ≠ .symbol word := by
  have hterm {clause : Clause} (hterm : IsTerm raw clause) :
      (Clause.read raw behind).1 ≠ .symbol word :=
    Clause.Spells.read_ne_symbol (hterm.isPlain.lower_eq_self.symm ▸ hterm.spells)
  -- The word itself: what follows it decides the price, and never that it is the limit word.
  have hlimit (hlimit : raw = "limit") : (Clause.read raw behind).1 ≠ .symbol word := by
    have hmem : Text.lower raw ∈ Clause.limitWords := by
      rw [hlimit, isPlain_limit.lower_eq_self]
      decide +kernel
    obtain ⟨price, hprice⟩ := Clause.exists_limit_of_read hmem behind
    simp [hprice]
  simp only [List.mem_append, List.mem_singleton] at hraw
  rcases hraw with (hraw | hraw) | hraw
  · obtain ⟨clause, -, hclause⟩ := Clause.exists_mem_of_forall₂ (forall₂_termsOf h) hraw
    exact hterm hclause
  · cases hprice : order.limitPrice with
    | none => simp [limitOf, hprice] at hraw
    | some x =>
      have hx : raw = "limit" ∨ raw = x.canonical := by simpa [limitOf, hprice] using hraw
      rcases hx with hx | rfl
      · exact hlimit hx
      · exact hterm (isTerm_price (h x (by simp [numbersOf, hprice])))
  · exact hlimit hraw

end OrderTicket.Command
