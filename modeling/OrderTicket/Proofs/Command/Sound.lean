import OrderTicket.Command.Reading
import OrderTicket.Proofs.Command.Clause
import OrderTicket.Proofs.Command.Draft

/-!
# Commands that are read are sound

This module shows what is true of every order that was read from a command. A draft is checked piece
by piece: some checks are made when a clause is applied and some when all clauses have been read.
`Draft.Sound` is the invariant of the first kind. It holds of the empty draft, every clause keeps it
(`Draft.apply_sound`), and so do all clauses of a command (`Draft.foldlM_sound`).

* `NamesMarket`: the markets that a symbol word can name.
* `Order.Sound`: what is true of an order that was read; `sound_of_read` shows it.
-/

namespace OrderTicket.Command

/-! ## Symbols -/

/-- `symbol` is the market that `word` names: `word` itself if it is a base in front of a known
quote asset, or `word` as a base with the standard quote asset behind it. -/
structure NamesMarket (settings : CommandSettings) (word symbol : String) : Prop where
  /-- The word has capital letters and digits only. -/
  isSymbol : Clause.isSymbol word = true
  /-- A base of two to ten characters stands in front of the quote asset. -/
  exists_base : ∃ base : String, 2 ≤ base.length ∧ base.length ≤ 10 ∧
    ((symbol = word ∧ ∃ quote ∈ quoteAssets settings, word = base ++ quote) ∨
      (base = word ∧ symbol = word ++ Text.upper settings.quoteAsset))

/-- The longest quote asset that a word ends in is one of the quote assets, and the word ends in
it. -/
theorem longestQuote?_eq_some {word quote : String} {quotes : List String}
    (h : longestQuote? word quotes = some quote) : quote ∈ quotes ∧ endsIn word quote = true := by
  -- the invariant of the search: what has been found so far is as claimed
  have hfold (rest : List String) (best : Option String)
      (hbest : ∀ q, best = some q → q ∈ quotes ∧ endsIn word q = true) (hrest : rest ⊆ quotes)
      (h : rest.foldl (fun best q =>
        if endsIn word q && best.all (·.length < q.length) then some q else best) best =
          some quote) :
      quote ∈ quotes ∧ endsIn word quote = true := by
    induction rest generalizing best with
    | nil => exact hbest quote h
    | cons q rest ih =>
      rw [List.cons_subset] at hrest
      refine ih _ ?_ hrest.2 h
      intro found hfound
      simp only at hfound
      split at hfound
      · rename_i hq
        obtain rfl := Option.some.inj hfound
        rw [Bool.and_eq_true] at hq
        exact ⟨hrest.1, hq.1⟩
      · exact hbest found hfound
  exact hfold quotes none (by simp) (List.Subset.refl _) h

/-- A word that ends in a quote asset is its base with the quote asset behind it. -/
theorem baseOf_append {word quote : String} (hquote : quote.isEmpty = false)
    (h : endsIn word quote = true) : word = baseOf word quote ++ quote := by
  rw [endsIn, Bool.and_eq_true, List.isSuffixOf_iff_suffix] at h
  obtain ⟨⟨front, hfront⟩, -⟩ := h
  -- the base is cut off by its length, which is that of what stands in front
  have hlength : word.length - quote.length = front.length := by
    rw [← String.length_toList, ← String.length_toList, ← hfront, List.length_append]
    omega
  apply String.toList_injective
  rw [baseOf, hquote, hlength]
  simp [← hfront]

/-- A symbol word is resolved to a market that it names. -/
theorem namesMarket_of_resolve {settings : CommandSettings} {word symbol : String}
    (hword : Clause.isSymbol word = true) (h : resolveSymbol? settings word = some symbol) :
    NamesMarket settings word symbol := by
  refine ⟨hword, ?_⟩
  unfold resolveSymbol? at h
  cases hlongest : longestQuote? word (quoteAssets settings) with
  | none =>
    rw [hlongest] at h
    simp only [Option.ite_none_right_eq_some, Option.some.injEq] at h
    obtain ⟨⟨hlow, hhigh⟩, rfl⟩ := h
    exact ⟨word, hlow, hhigh, .inr ⟨rfl, rfl⟩⟩
  | some quote =>
    rw [hlongest] at h
    simp only [Option.ite_none_right_eq_some, Option.some.injEq] at h
    obtain ⟨⟨hlow, hhigh⟩, rfl⟩ := h
    obtain ⟨hmem, hends⟩ := longestQuote?_eq_some hlongest
    -- an empty quote asset would leave no base
    have hquote : quote.isEmpty = false := by
      cases hempty : quote.isEmpty with
      | false => rfl
      | true => simp [baseOf, hempty] at hlow
    exact ⟨baseOf word quote, hlow, hhigh, .inl ⟨rfl, quote, hmem, baseOf_append hquote hends⟩⟩

/-! ## The invariant of drafts -/

/-- A market that a word of a text names. -/
def NamedIn (settings : CommandSettings) (text symbol : String) : Prop :=
  ∃ raw ∈ Text.words text, NamesMarket settings (Text.upper raw) symbol

/-- What is true of everything that a draft has stored while a text is read. -/
structure Draft.Sound (settings : CommandSettings) (text : String) (draft : Draft) : Prop where
  /-- The symbol is a market that a word of the text names. -/
  symbol : ∀ symbol, draft.symbol = some symbol → NamedIn settings text symbol
  /-- The amount is a number that a command may hold. -/
  size : ∀ size, draft.size = some size → Typed size.amount
  /-- A share is at most `100`. -/
  share : ∀ size, draft.size = some size → size.unit = .percent → size.amount.value ≤ 100
  /-- The leverage lies within the bounds. -/
  leverage : ∀ leverage, draft.leverage = some leverage →
    1 ≤ leverage ∧ leverage ≤ settings.maxLeverage ∧ leverage < 10 ^ 15
  /-- The limit price is a number that a command may hold. -/
  limitPrice : ∀ price, draft.limitPrice = some price → Typed price
  /-- An order with a limit price is a limit order. -/
  limit : ∀ price, draft.limitPrice = some price → draft.limit = true
  /-- Distances are numbers that a command may hold. -/
  protection : ∀ kind distance, draft.protection kind = some distance → Typed distance
  /-- Stops are less than the whole price away. -/
  stop : ∀ kind distance, draft.protection kind = some distance → kind ≠ .takeProfit →
    distance.value < 100

namespace Draft

variable {settings : CommandSettings} {text : String} {draft made : Draft}

/-- A problem stores nothing. -/
theorem Sound.fail (h : draft.Sound settings text) (problem : Problem) :
    (draft.fail problem).Sound settings text :=
  ⟨h.symbol, h.size, h.share, h.leverage, h.limitPrice, h.limit, h.protection, h.stop⟩

/-- A check keeps a draft sound. -/
theorem Sound.failIf (h : draft.Sound settings text) (condition : Bool) (problem : Problem) :
    (draft.failIf condition problem).Sound settings text := by
  cases condition with
  | true => exact h.fail problem
  | false => exact h

/-- A draft without terms is sound. -/
theorem sound_empty (side : Side) : Sound settings text { side } := by
  constructor
  case protection => rintro (_ | _ | _) _ ⟨⟩
  case stop => rintro (_ | _ | _) _ ⟨⟩
  all_goals simp

theorem Sound.setSymbol {word raw : String} (h : draft.Sound settings text)
    (hraw : raw ∈ Text.words text) (hword : Clause.isSymbol word = true)
    (hupper : word = Text.upper raw) : (setSymbol settings draft word).Sound settings text := by
  unfold Draft.setSymbol
  split
  · exact h.fail _
  · rename_i symbol hsymbol
    split
    · split
      · exact h
      · exact h.fail _
    · refine ⟨?_, h.size, h.share, h.leverage, h.limitPrice, h.limit, h.protection, h.stop⟩
      rintro _ ⟨⟩
      subst hupper
      exact ⟨raw, hraw, namesMarket_of_resolve hword hsymbol⟩

theorem Sound.setSize {number : String} {unit : SizeUnit} (h : draft.Sound settings text)
    (hmade : draft.setSize number unit = .ok made) : made.Sound settings text := by
  obtain ⟨problem, rfl⟩ | ⟨-, amount, hamount, hpos, hshare, rfl⟩ := setSize_ok hmade
  · exact h.fail problem
  · refine ⟨h.symbol, ?_, ?_, h.leverage, h.limitPrice, h.limit, h.protection, h.stop⟩
    · rintro _ ⟨⟩
      exact hamount.typed hpos
    · rintro _ ⟨⟩
      exact hshare

theorem Sound.setLeverage {number : String} (h : draft.Sound settings text)
    (hmade : draft.setLeverage settings number = .ok made) : made.Sound settings text := by
  obtain ⟨problem, rfl⟩ | ⟨-, x, leverage, hx, hvalue, hone, hmax, rfl⟩ := setLeverage_ok hmade
  · exact h.fail problem
  · refine ⟨h.symbol, h.size, h.share, ?_, h.limitPrice, h.limit, h.protection, h.stop⟩
    rintro _ ⟨⟩
    have hlt := (abs_lt.1 hx.abs_lt_limit).2
    rw [hvalue] at hlt
    exact ⟨hone, hmax, by exact_mod_cast hlt⟩

/-- A limit price is stored only where the draft is one of a limit order already. -/
theorem Sound.setLimitPrice {number : String} (h : draft.Sound settings text)
    (hlimit : draft.limit = true) (hmade : draft.setLimitPrice number = .ok made) :
    made.Sound settings text := by
  obtain ⟨problem, rfl⟩ | ⟨price, hprice, hpos, rfl⟩ := setLimitPrice_ok hmade
  · exact h.fail problem
  · refine ⟨h.symbol, h.size, h.share, h.leverage, ?_, fun _ _ => hlimit, h.protection, h.stop⟩
    rintro _ ⟨⟩
    exact hprice.typed hpos

theorem Sound.setProtection {kind : Protection} {number : String} (h : draft.Sound settings text)
    (hmade : draft.setProtection kind number = .ok made) : made.Sound settings text := by
  obtain ⟨problem, rfl⟩ | ⟨-, distance, hdistance, hpos, hstop, rfl⟩ := setProtection_ok hmade
  · exact h.fail problem
  · -- a distance that is stored now is the new one, or it was stored before
    have hstored (other : Protection) (x : Decimal)
        (hx : (draft.withProtection distance kind).protection other = some x) :
        other = kind ∧ x = distance ∨ draft.protection other = some x := by
      cases kind <;> cases other <;> simp_all [withProtection, Draft.protection]
    refine ⟨?_, ?_, ?_, ?_, ?_, ?_, ?_, ?_⟩
    case refine_7 =>
      intro other x hx
      obtain ⟨-, rfl⟩ | hx := hstored other x hx
      · exact hdistance.typed hpos
      · exact h.protection other x hx
    case refine_8 =>
      intro other x hx hother
      obtain ⟨rfl, rfl⟩ | hx := hstored other x hx
      · exact hstop hother
      · exact h.stop other x hx hother
    -- the other terms are not touched
    all_goals cases kind
    all_goals first
      | exact h.symbol
      | exact h.size
      | exact h.share
      | exact h.leverage
      | exact h.limitPrice
      | exact h.limit

/-- A clause keeps a draft sound, if a symbol in it comes from the text. -/
theorem apply_sound {clause : Clause} (h : draft.Sound settings text)
    (hclause : ∀ word, clause = .symbol word →
      Clause.isSymbol word = true ∧ ∃ raw ∈ Text.words text, word = Text.upper raw)
    (hmade : draft.apply settings clause = .ok made) : made.Sound settings text := by
  -- a draft that is marked as one of a limit order
  have hlimited {other : Draft} (h : other.Sound settings text) :
      Sound settings text { other with limit := true } :=
    ⟨h.symbol, h.size, h.share, h.leverage, h.limitPrice, fun _ _ => rfl, h.protection, h.stop⟩
  cases clause with
  | reduce =>
    cases hmade
    have hfail := h.failIf draft.reduceOnly (.givenTwice "Reduce-only")
    exact ⟨hfail.symbol, hfail.size, hfail.share, hfail.leverage, hfail.limitPrice, hfail.limit,
      hfail.protection, hfail.stop⟩
  | market =>
    cases hmade
    have hfail := h.failIf draft.market (.givenTwice "Market")
    exact ⟨hfail.symbol, hfail.size, hfail.share, hfail.leverage, hfail.limitPrice, hfail.limit,
      hfail.protection, hfail.stop⟩
  | limit price =>
    have hfail := hlimited (h.failIf draft.limit (.givenTwice "Limit"))
    cases price with
    | none =>
      cases hmade
      exact hfail
    | some number => exact hfail.setLimitPrice rfl hmade
  | atPrice number =>
    exact (hlimited (h.failIf draft.limitPrice.isSome (.givenTwice "Limit price"))).setLimitPrice
      rfl hmade
  | leverage number => exact h.setLeverage hmade
  | protection kind number => exact h.setProtection hmade
  | size number unit => exact h.setSize hmade
  | symbol word =>
    cases hmade
    obtain ⟨hword, raw, hraw, hupper⟩ := hclause word rfl
    exact h.setSymbol hraw hword hupper
  | leverageMissing | protectionMissing | protectionInvalid | notFinite | unrecognized =>
    cases hmade
    exact h.fail _

/-- All clauses of a command, one after the other, keep a draft sound. -/
theorem foldlM_sound {clauses : List Clause} (h : draft.Sound settings text)
    (hclauses : ∀ word, .symbol word ∈ clauses →
      Clause.isSymbol word = true ∧ ∃ raw ∈ Text.words text, word = Text.upper raw)
    (hmade : clauses.foldlM (Draft.apply settings) draft = .ok made) :
    made.Sound settings text := by
  -- on the clauses; each of them keeps the draft sound for the ones behind it
  induction clauses generalizing draft with
  | nil =>
    cases hmade
    exact h
  | cons clause rest ih =>
    rw [List.foldlM_cons] at hmade
    obtain ⟨next, hnext, hmade⟩ := bind_eq_ok hmade
    have hsound := apply_sound h
      (fun word hword => hclauses word (hword ▸ List.mem_cons_self)) hnext
    exact ih hsound (fun word hword => hclauses word (List.mem_cons_of_mem _ hword)) hmade

end Draft

/-! ## Orders -/

/-- What is true of an order that was read from a text. -/
structure OrderSound (settings : CommandSettings) (text : String) (order : Order) : Prop where
  /-- The symbol is a market that a word of the text names. -/
  symbol : NamedIn settings text order.symbol
  /-- The amount is a number that a command may hold. -/
  size : Typed order.size.amount
  /-- A share is at most `100`. -/
  share : order.size.unit = .percent → order.size.amount.value ≤ 100
  /-- The leverage lies within the bounds. -/
  leverage : ∀ leverage, order.leverage = some leverage →
    1 ≤ leverage ∧ leverage ≤ settings.maxLeverage ∧ leverage < 10 ^ 15
  /-- The limit price is a number that a command may hold. -/
  limitPrice : ∀ price, order.limitPrice = some price → Typed price
  /-- The order is a limit order exactly if it has a limit price. -/
  limit_iff : order.type = .limit ↔ order.limitPrice.isSome = true
  /-- The stop loss is a distance of less than the whole price. -/
  stopLoss : ∀ distance, order.stopLoss = some distance → Typed distance ∧ distance.value < 100
  /-- The trailing stop is a distance of less than the whole price. -/
  trailing : ∀ distance, order.trailing = some distance → Typed distance ∧ distance.value < 100
  /-- The profit target is a number that a command may hold. -/
  takeProfit : ∀ distance, order.takeProfit = some distance → Typed distance
  /-- The profit target of a sale is a distance of less than the whole price. -/
  target : order.side = .sell → ∀ distance, order.takeProfit = some distance → distance.value < 100
  /-- A share of the balance does not make a position smaller. -/
  share_reduceOnly : order.size.unit = .percent → order.reduceOnly = false
  /-- A share of the balance takes no leverage on a spot market. -/
  share_leverage : order.size.unit = .percent → settings.market = .spot → order.leverage = none

variable {settings : CommandSettings} {text : String}

/-- The draft that the words behind the action make is sound. -/
theorem Draft.sound_of_words {word : String} {words : List String} {side : Side} {draft : Draft}
    (hwords : Text.words text = word :: words)
    (hdraft : (Clause.readAll words).foldlM (Draft.apply settings) { side } = .ok draft) :
    draft.Sound settings text := by
  refine foldlM_sound (sound_empty side) ?_ hdraft
  intro symbol hsymbol
  obtain ⟨hupper, raw, hraw, heq⟩ := Clause.exists_of_symbol_mem hsymbol
  exact ⟨hupper, raw, hwords ▸ List.mem_cons_of_mem _ hraw, heq⟩

/-- A reading with an order comes from a draft that was finished without problems. -/
theorem exists_draft_of_read {reading : Reading} {order : Order}
    (h : read settings text = .ok reading) (horder : reading.order = some order) :
    ∃ draft finished : Draft, draft.Sound settings text ∧ draft.finished settings = .ok finished ∧
      finished.order? = some order := by
  unfold read at h
  -- An empty text and an unknown action end the reading before a draft is begun.
  split at h
  · cases h
    cases horder
  · rename_i word words hwords
    split at h
    · cases h
      cases horder
    · rename_i side hside
      obtain ⟨draft, hdraft, h⟩ := bind_eq_ok h
      obtain ⟨finished, hfinished, h⟩ := bind_eq_ok h
      cases h
      refine ⟨draft, finished, Draft.sound_of_words hwords hdraft, hfinished, ?_⟩
      unfold Reading.ofDraft at horder
      split at horder
      · rename_i made hmade
        rw [hmade]
        exact horder
      · cases horder

/-- The distances of the protections of an order that is read are typed numbers. -/
theorem typed_of_read {reading : Reading} {order : Order} (h : read settings text = .ok reading)
    (horder : reading.order = some order) {distance : Decimal}
    (hdistance : order.stopLoss = some distance ∨ order.takeProfit = some distance) :
    Typed distance := by
  obtain ⟨draft, finished, hsound, hfinished, horder⟩ := exists_draft_of_read h horder
  obtain ⟨hnone, symbol, size, -, -, rfl⟩ := order?_eq_some horder
  obtain ⟨rfl, -⟩ := Draft.finished_ok hfinished hnone
  rcases hdistance with hstop | htarget
  · exact hsound.protection .stopLoss distance hstop
  · exact hsound.protection .takeProfit distance htarget

/-- Every order that is read from a command is sound. -/
theorem sound_of_read {reading : Reading} {order : Order} (h : read settings text = .ok reading)
    (horder : reading.order = some order) : OrderSound settings text order := by
  obtain ⟨draft, finished, hsound, hfinished, horder⟩ := exists_draft_of_read h horder
  obtain ⟨hnone, symbol, size, hsymbol, hsize, rfl⟩ := order?_eq_some horder
  -- the order exists only if the last checks found no problem either
  obtain ⟨rfl, hprice, hreduce, hspot, htarget⟩ := Draft.finished_ok hfinished hnone
  -- the checks of the whole command speak of shares
  have hshare (hunit : size.unit = .percent) : finished.isShare = true := by
    rw [Draft.isShare, hsize]
    simpa using hunit
  constructor
  case symbol => exact hsound.symbol symbol hsymbol
  case size => exact hsound.size size hsize
  case share => exact hsound.share size hsize
  case leverage => exact hsound.leverage
  case limitPrice => exact hsound.limitPrice
  case limit_iff =>
    constructor
    · intro htype
      refine hprice ?_
      simpa using htype
    · intro hsome
      obtain ⟨price, hsome⟩ := Option.isSome_iff_exists.1 hsome
      simp [hsound.limit price hsome]
  case stopLoss =>
    intro distance hdistance
    exact ⟨hsound.protection .stopLoss distance hdistance,
      hsound.stop .stopLoss distance hdistance (by decide)⟩
  case trailing =>
    intro distance hdistance
    exact ⟨hsound.protection .trailing distance hdistance,
      hsound.stop .trailing distance hdistance (by decide)⟩
  case takeProfit =>
    intro distance hdistance
    exact hsound.protection .takeProfit distance hdistance
  case target =>
    intro hside distance hdistance
    have htyped := hsound.protection .takeProfit distance hdistance
    exact Draft.lt_hundred htyped.isFinite (Draft.targetTooHigh?_eq_none htarget hside hdistance)
  case share_reduceOnly => exact fun hunit => hreduce (hshare hunit)
  case share_leverage => exact fun hunit => hspot (hshare hunit)

/-- A command whose reading has an order. -/
theorem sound_of_read_buy : ∃ reading order,
    read {} "/buy BTC 25% x5 sl1% limit ٦٤٠٠٠" = .ok reading ∧ reading.order = some order ∧
      OrderSound {} "/buy BTC 25% x5 sl1% limit ٦٤٠٠٠" order := by
  have hread : (read {} "/buy BTC 25% x5 sl1% limit ٦٤٠٠٠").toOption.any
      (fun reading => reading.order.isSome) = true := by decide +kernel
  cases hrun : read {} "/buy BTC 25% x5 sl1% limit ٦٤٠٠٠" with
  | error fault => simp [hrun, Except.toOption] at hread
  | ok reading =>
    rw [hrun] at hread
    obtain ⟨order, horder⟩ :=
      Option.isSome_iff_exists.1 (show reading.order.isSome = true from hread)
    exact ⟨reading, order, rfl, horder, sound_of_read hrun horder⟩

end OrderTicket.Command
