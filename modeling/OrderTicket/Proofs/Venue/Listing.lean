import OrderTicket.Proofs.Rules.Registry
import OrderTicket.Proofs.Venue.Work

/-!
# What becomes of listed markets

A venue lists markets, and a client reads their rules one after another. What becomes of a market is
told by the market itself and by those that are listed before it: it is inactive, its metadata
cannot be used, an earlier market has the same identifier, or its rules are the ones of that
identifier.

* `Client.Gives`: a market gives rules. `Client.Leads`: it is the first one that gives rules for
  their identifier.
* `Client.Becomes`, `Client.Accounts`: what becomes of one market, and of each market of a list.
* `Client.Accounts.mem_iff`: the rules that are read are those of the leading markets.
* `Client.readMarkets_achieves`: what a client reads, and what it notes, accounts for each market.
-/

namespace OrderTicket

/-! ## Identifiers -/

/-- Atoms of the same value have the same key. -/
theorem Payload.key_eq_of_sameAtom {a b : Payload} (h : a.sameAtom b = true) : a.key = b.key := by
  unfold sameAtom at h
  cases ha : a.key <;> cases hb : b.key <;> simp_all

/-- Atoms of the same value as one of the same value have the same value. -/
theorem Payload.sameAtom_trans {a b c : Payload} (hab : a.sameAtom b = true)
    (hbc : b.sameAtom c = true) : a.sameAtom c = true := by
  unfold sameAtom at hbc ⊢
  rwa [key_eq_of_sameAtom hab]

/-- Identifiers that are the same as one and the same are the same. -/
theorem MarketId.same_trans {a b c : MarketId} (hab : a.same b = true) (hbc : b.same c = true) :
    a.same c = true := by
  cases a <;> cases b <;> cases c <;> simp_all [same]
  exact Payload.sameAtom_trans hab hbc

namespace Client

variable {band : Decimal} {market : Payload} {rules other : TradingRules} {failure : Failure}
  {symbol : String} {before after listed rest : List (String × Payload)}
  {known : List TradingRules} {reading : Reading} {readings : List Reading}

/-! ## One market -/

/-- Metadata that is missing or empty counts as empty. -/
def givenOrEmpty : Option Payload → Payload
  | some info => if info.isGiven then info else .object []
  | none => .object []

/-- A market that says that it is not active. -/
def IsInactive (market : Payload) : Prop :=
  market.field? "active" = .ok (some (.bool false))

/-- What reading the rules of a market comes to, if it is not inactive. -/
def offer (band : Decimal) (market : Payload) : Except Failure TradingRules := do
  rulesOf market (givenOrEmpty (← market.field? "info")) band

/-- A market that is not inactive and whose metadata gives rules. -/
structure Gives (band : Decimal) (market : Payload) (rules : TradingRules) : Prop where
  /-- The market is not inactive. -/
  not_inactive : ¬ IsInactive market
  /-- Its metadata gives the rules. -/
  offer_eq : offer band market = .ok rules

/-- A market that is not inactive and whose metadata cannot be used. -/
structure Spoils (band : Decimal) (market : Payload) (failure : Failure) : Prop where
  /-- The market is not inactive. -/
  not_inactive : ¬ IsInactive market
  /-- Its metadata does not give rules. -/
  offer_eq : offer band market = .error failure
  /-- The reason lies in the metadata. -/
  isUnusable : isUnusableMetadata failure = true

/-- A market gives one set of rules. -/
theorem Gives.eq (h : Gives band market rules) (h' : Gives band market other) : rules = other :=
  Except.ok.inj (h.offer_eq.symm.trans h'.offer_eq)

/-- A market whose metadata cannot be used gives no rules. -/
theorem Spoils.not_gives (h : Spoils band market failure) : ¬ Gives band market rules := by
  intro hgives
  cases h.offer_eq.symm.trans hgives.offer_eq

/-- What a client makes of an offer, beside the rules that it knows. -/
def place (known : List TradingRules) (symbol : String) :
    Except Failure TradingRules → Except Failure Reading
  | .error failure =>
    if isUnusableMetadata failure then .ok (.left (.skipped symbol failure.message))
    else .error failure
  | .ok rules =>
    if !rules.symbol.toPayload.isAtom then .error .unusable
    else if known.any (·.symbol.same rules.symbol) then .ok (.left (.duplicate symbol rules.symbol))
    else .ok (.rules rules)

/-- A client reads an inactive market as such, and any other one by its offer. -/
theorem readMarket_eq_ok (h : readMarket band known symbol market = .ok reading) :
    IsInactive market ∧ reading = .inactive ∨
      ¬ IsInactive market ∧ place known symbol (offer band market) = .ok reading := by
  unfold readMarket at h
  obtain ⟨active, hactive, h⟩ := bind_eq_ok h
  split at h
  · exact .inl ⟨hactive, (Except.ok.inj h).symm⟩
  · rename_i hnot
    refine .inr ⟨fun hin => hnot (Except.ok.inj (hactive.symm.trans hin)), ?_⟩
    obtain ⟨info, hinfo, h⟩ := bind_eq_ok h
    rw [offer, hinfo]
    exact h

/-- What a client can read from one market, beside the rules that it knows. -/
theorem readMarket_cases (h : readMarket band known symbol market = .ok reading) :
    (IsInactive market ∧ reading = .inactive) ∨
    (∃ failure, Spoils band market failure ∧ reading = .left (.skipped symbol failure.message)) ∨
    ∃ rules, Gives band market rules ∧ rules.symbol.toPayload.isAtom ∧
      ((∃ earlier ∈ known, earlier.symbol.same rules.symbol = true) ∧
          reading = .left (.duplicate symbol rules.symbol) ∨
        (∀ earlier ∈ known, earlier.symbol.same rules.symbol = false) ∧
          reading = .rules rules) := by
  rcases readMarket_eq_ok h with hin | ⟨hnot, hplace⟩
  · exact .inl hin
  -- What the market offers is read before it is compared with what is known.
  cases hoffer : offer band market with
  | error failure =>
    rw [hoffer, place] at hplace
    split at hplace
    · rename_i hunusable
      exact .inr (.inl ⟨failure, ⟨hnot, hoffer, hunusable⟩, (Except.ok.inj hplace).symm⟩)
    · cases hplace
  | ok rules =>
    rw [hoffer, place] at hplace
    split at hplace
    · cases hplace
    · rename_i hatom
      refine .inr (.inr ⟨rules, ⟨hnot, hoffer⟩, by simpa using hatom, ?_⟩)
      split at hplace
      · rename_i hany
        exact .inl ⟨List.any_eq_true.1 hany, (Except.ok.inj hplace).symm⟩
      · rename_i hany
        exact .inr ⟨by simpa using hany, (Except.ok.inj hplace).symm⟩

/-- The rules of a market fail to be read only because of its metadata. -/
theorem rulesOf_failsOnly (market info : Payload) (band : Decimal) :
    FailsOnly (rulesOf market info band) Failure.OfMetadata :=
  .bind (info.field?_failsOnly _) fun _ _ => .ite (fun _ => TradingRules.ofFilters_failsOnly _ _)
    fun _ => TradingRules.ofUnified_failsOnly _ _

/-- Reading a market fails only because of its metadata. -/
theorem readMarket_failsOnly (band : Decimal) (known : List TradingRules) (symbol : String)
    (market : Payload) : FailsOnly (readMarket band known symbol market) Failure.OfMetadata := by
  refine .bind (market.field?_failsOnly _) fun active _ => ?_
  split
  · exact .ok
  · refine .bind (market.field?_failsOnly _) fun info _ => ?_
    dsimp only
    split
    · rename_i failure hrules
      exact .ite (fun _ => .ok) fun _ => .error (rulesOf_failsOnly _ _ _ failure hrules)
    · exact .ite (fun _ => .error trivial) fun _ => .ite (fun _ => .ok) fun _ => .ok

/-! ## Markets of a list -/

/-- Rules of which an earlier market of a list has the identifier. -/
def Taken (band : Decimal) (before : List (String × Payload)) (id : MarketId) : Prop :=
  ∃ market ∈ before, ∃ rules, Gives band market.2 rules ∧ rules.symbol.same id = true

/-- The rules of the first market of a list that gives rules for their identifier. -/
def Leads (band : Decimal) (listed : List (String × Payload)) (rules : TradingRules) : Prop :=
  ∃ before symbol market after, listed = before ++ (symbol, market) :: after ∧
    Gives band market rules ∧ ¬ Taken band before rules.symbol

/-- What becomes of a market that is listed behind others. -/
inductive Becomes (band : Decimal) (before : List (String × Payload)) (symbol : String)
    (market : Payload) : Reading → Prop
  /-- A market that is inactive is passed over. -/
  | inactive (h : IsInactive market) : Becomes band before symbol market .inactive
  /-- A market that cannot be used is skipped, with a note. -/
  | skipped (failure : Failure) (h : Spoils band market failure) :
    Becomes band before symbol market (.left (.skipped symbol failure.message))
  /-- A market whose identifier is taken is dropped, with a note. -/
  | duplicate (rules : TradingRules) (h : Gives band market rules)
    (htaken : Taken band before rules.symbol) :
    Becomes band before symbol market (.left (.duplicate symbol rules.symbol))
  /-- The rules of any other market count. -/
  | rules (rules : TradingRules) (h : Gives band market rules)
    (hfree : ¬ Taken band before rules.symbol) : Becomes band before symbol market (.rules rules)

/-- What becomes of each market of a list that stands behind others. -/
inductive Accounts (band : Decimal) :
    List (String × Payload) → List (String × Payload) → List Reading → Prop
  | nil (before : List (String × Payload)) : Accounts band before [] []
  | cons {before : List (String × Payload)} {symbol : String} {market : Payload}
    {rest : List (String × Payload)} {reading : Reading} {readings : List Reading}
    (hfirst : Becomes band before symbol market reading)
    (hrest : Accounts band (before ++ [(symbol, market)]) rest readings) :
    Accounts band before ((symbol, market) :: rest) (reading :: readings)

/-- The rules that a reading adds. -/
def Reading.rules? : Reading → Option TradingRules
  | .rules rules => some rules
  | _ => none

/-- The note that a reading leaves. -/
def Reading.note? : Reading → Option Event
  | .left event => some event
  | _ => none

/-- The rules that are read are those of the leading markets. -/
theorem Accounts.mem_iff (h : Accounts band before rest readings) :
    rules ∈ readings.filterMap Reading.rules? ↔
      ∃ earlier symbol market after, rest = earlier ++ (symbol, market) :: after ∧
        Gives band market rules ∧ ¬ Taken band (before ++ earlier) rules.symbol := by
  induction h with
  | nil => simp
  | @cons before symbol market rest reading readings hfirst hrest ih =>
    have hmem : rules ∈ (reading :: readings).filterMap Reading.rules? ↔
        reading = .rules rules ∨ rules ∈ readings.filterMap Reading.rules? := by
      cases reading <;> simp [Reading.rules?, eq_comm]
    -- the first market adds the rules that it gives unless their identifier is taken
    have hhead : reading = .rules rules ↔
        Gives band market rules ∧ ¬ Taken band before rules.symbol := by
      cases hfirst with
      | inactive hin => simpa using fun hgives => absurd hin hgives.not_inactive
      | skipped failure hspoils => simpa using fun hgives => absurd hgives hspoils.not_gives
      | duplicate other hgives htaken =>
        simpa using fun hrules => hgives.eq hrules ▸ htaken
      | rules other hgives hfree =>
        rw [Reading.rules.injEq]
        exact ⟨fun heq => heq ▸ ⟨hgives, hfree⟩, fun hrules => hgives.eq hrules.1⟩
    rw [hmem, hhead, ih]
    constructor
    · rintro (⟨hgives, hfree⟩ | ⟨earlier, symbol', market', after, rfl, hgives, hfree⟩)
      · exact ⟨[], symbol, market, rest, rfl, hgives, by simpa using hfree⟩
      · exact ⟨(symbol, market) :: earlier, symbol', market', after, rfl, hgives, by
          simpa using hfree⟩
    · rintro ⟨earlier, symbol', market', after, hsplit, hgives, hfree⟩
      cases earlier with
      | nil =>
        obtain ⟨⟨rfl, rfl⟩, rfl⟩ : (symbol = symbol' ∧ market = market') ∧ rest = after := by
          simpa using hsplit
        exact .inl ⟨hgives, by simpa using hfree⟩
      | cons first earlier =>
        obtain ⟨rfl, rfl⟩ : (symbol, market) = first ∧
            rest = earlier ++ (symbol', market') :: after := by simpa using hsplit
        exact .inr ⟨earlier, symbol', market', after, rfl, hgives, by simpa using hfree⟩

/-! ## Reading -/

/-- The rules that a client knows behind the markets that it has read. -/
structure Knows (band : Decimal) (before : List (String × Payload))
    (known : List TradingRules) : Prop where
  /-- An identifier is known if it is taken. -/
  taken_iff (id : MarketId) :
    (∃ rules ∈ known, rules.symbol.same id = true) ↔ Taken band before id
  /-- A table can be made of the rules. -/
  distinct : RuleTable.Distinct known

theorem Knows.nil (band : Decimal) : Knows band [] [] :=
  ⟨fun id => by simp [Taken], .nil⟩

/-- An identifier is taken behind a market if it was before, or the market has it. -/
theorem taken_concat {id : MarketId} :
    Taken band (before ++ [(symbol, market)]) id ↔
      Taken band before id ∨ ∃ rules, Gives band market rules ∧ rules.symbol.same id = true := by
  simp [Taken, or_and_right, exists_or]

/-- A market that gives no rules adds no identifier. -/
theorem Knows.of_not_gives (h : Knows band before known)
    (hnot : ∀ rules, ¬ Gives band market rules) :
    Knows band (before ++ [(symbol, market)]) known :=
  ⟨fun id => by simp [taken_concat, h.taken_iff, hnot], h.distinct⟩

/-- A market whose identifier is known adds none. -/
theorem Knows.of_taken (h : Knows band before known) (hgives : Gives band market rules)
    (hknown : ∃ earlier ∈ known, earlier.symbol.same rules.symbol = true) :
    Knows band (before ++ [(symbol, market)]) known := by
  refine ⟨fun id => ?_, h.distinct⟩
  rw [taken_concat, ← h.taken_iff]
  refine ⟨.inl, ?_⟩
  rintro (hold | ⟨other, hother, hsame⟩)
  · exact hold
  · obtain rfl := hgives.eq hother
    obtain ⟨earlier, hearlier, hrules⟩ := hknown
    exact ⟨earlier, hearlier, MarketId.same_trans hrules hsame⟩

/-- Any other market adds its own identifier. -/
theorem Knows.concat (h : Knows band before known) (hgives : Gives band market rules)
    (hatom : rules.symbol.toPayload.isAtom)
    (hnew : ∀ earlier ∈ known, earlier.symbol.same rules.symbol = false) :
    Knows band (before ++ [(symbol, market)]) (known ++ [rules]) where
  taken_iff id := by
    have hown : (∃ other, Gives band market other ∧ other.symbol.same id = true) ↔
        rules.symbol.same id = true :=
      ⟨fun ⟨other, hother, hsame⟩ => hgives.eq hother ▸ hsame, fun hsame => ⟨rules, hgives, hsame⟩⟩
    rw [taken_concat, ← h.taken_iff, hown]
    simp [or_and_right, exists_or]
  distinct := RuleTable.distinct_concat.2 ⟨h.distinct, hatom, by simpa using hnew⟩

/-- Reading a market tells what becomes of it, and what is known behind it. -/
theorem becomes_of_readMarket (hknown : Knows band before known)
    (h : readMarket band known symbol market = .ok reading) :
    Becomes band before symbol market reading ∧
      Knows band (before ++ [(symbol, market)]) (known ++ reading.rules?.toList) := by
  rcases readMarket_cases h with ⟨hin, rfl⟩ | ⟨failure, hspoils, rfl⟩ |
    ⟨rules, hgives, hatom, ⟨hold, rfl⟩ | ⟨hnew, rfl⟩⟩
  -- inactive, skipped, dropped, or read: only the last one adds to what is known
  · exact ⟨.inactive hin, by
      simpa [Reading.rules?] using hknown.of_not_gives fun _ hgives => hgives.not_inactive hin⟩
  · exact ⟨.skipped failure hspoils, by
      simpa [Reading.rules?] using hknown.of_not_gives fun _ => hspoils.not_gives⟩
  · exact ⟨.duplicate rules hgives ((hknown.taken_iff _).1 hold), by
      simpa [Reading.rules?] using hknown.of_taken hgives hold⟩
  · refine ⟨.rules rules hgives fun htaken => ?_, hknown.concat hgives hatom hnew⟩
    obtain ⟨earlier, hearlier, hsame⟩ := (hknown.taken_iff _).2 htaken
    rw [hnew earlier hearlier] at hsame
    cases hsame

/-- What a client reads from a list of markets, and what it notes, accounts for each of them. -/
theorem readMarkets_achieves (hknown : Knows band before known) (state : State) :
    Achieves (readMarkets band known rest) state (fun rules next => ∃ readings,
      Accounts band before rest readings ∧
      rules = known ++ readings.filterMap Reading.rules? ∧
      RuleTable.Distinct rules ∧
      next = { state with events := state.events ++ readings.filterMap Reading.note? })
      fun failure _ => failure.OfVenue := by
  -- on the markets that are left; what is known covers those before them
  induction rest generalizing before known state with
  | nil => exact .pure ⟨[], .nil before, by simp, hknown.distinct, by simp⟩
  | cons first rest ih =>
    obtain ⟨symbol, market⟩ := first
    refine .bind (.lift (fun reading hreading => ?_)
      ((readMarket_failsOnly band known symbol market).mono fun _ => Failure.OfMetadata.ofVenue))
    obtain ⟨hfirst, hnext⟩ := becomes_of_readMarket hknown hreading
    cases reading with
    | inactive =>
      refine (ih (by simpa [Reading.rules?] using hnext) state).mono ?_
      rintro rules next ⟨readings, hrest, hrules, hdistinct, hstate⟩
      exact ⟨_, .cons hfirst hrest, hrules, hdistinct, hstate⟩
    | rules own =>
      refine (ih hnext state).mono ?_
      rintro rules next ⟨readings, hrest, hrules, hdistinct, hstate⟩
      exact ⟨_, .cons hfirst hrest, by simpa [Reading.rules?] using hrules, hdistinct, hstate⟩
    | left event =>
      refine .bind (.note ((ih (by simpa [Reading.rules?] using hnext) _).mono ?_))
      rintro rules next ⟨readings, hrest, hrules, hdistinct, hstate⟩
      exact ⟨_, .cons hfirst hrest, hrules, hdistinct, by simpa [Reading.note?] using hstate⟩

end Client

end OrderTicket
