import OrderTicket.Proofs.Venue.Shape

/-!
# What a broken market costs

A client reads the markets of a venue one after another. What a market adds to the rules depends on
the market itself and on the symbols of the rules before it, so a market that can be read costs no
other one its rules unless it takes their symbol. A market with a value of another kind where every
market is looked into is not skipped: it stops the reading, and no market has rules.

* `Client.load`: the rules that a client reads from what a venue lists.
* `Client.alone`: what a market gives by itself; `Client.readNext_eq`: what it adds to other rules.
* `Client.foldlM_readNext_insert`: rules of another symbol change nothing for those that follow.
* `Client.costsItself_of_identified`: what one market of a list costs the others.
-/

namespace OrderTicket

open Payload

/-- Identifiers that are the same entry of a table are so in either order. -/
theorem MarketId.same_symm {a b : MarketId} (h : a.same b = true) : b.same a = true := by
  cases a <;> cases b <;> simp_all [same]
  have hkey := Payload.key_eq_of_sameAtom h
  unfold Payload.sameAtom at h ⊢
  rwa [hkey] at h ⊢

namespace Client

variable {settings : VenueSettings} {band : Decimal} {market : Payload} {rules : TradingRules}
  {known result : List TradingRules} {symbol : String} {entry : String × Payload}
  {entries before after : List (String × Payload)}

/-! ## Reading without a log -/

/-- The rules that are known behind one more market. -/
def readNext (band : Decimal) (known : List TradingRules) (entry : String × Payload) :
    Except Failure (List TradingRules) := do
  return known ++ (← readMarket band known entry.1 entry.2).rules?.toList

/-- What a client reads from markets does not depend on what it notes. -/
theorem run_readMarkets_fst (band : Decimal) (known : List TradingRules)
    (entries : List (String × Payload)) (state : State) :
    ((readMarkets band known entries).run state).1 = entries.foldlM (readNext band) known := by
  induction entries generalizing known state with
  | nil => rfl
  | cons entry rest ih =>
    rw [readMarkets, run_bind, run_lift, List.foldlM_cons, readNext]
    cases readMarket band known entry.1 entry.2 with
    | error failure => rfl
    | ok reading =>
      cases reading with
      | inactive =>
        have hnone : known ++ [] = known := List.append_nil known
        exact (ih known state).trans (congrArg (rest.foldlM (readNext band)) hnone.symm)
      | rules rules => exact ih (known ++ [rules]) state
      | left event =>
        have hnone : known ++ [] = known := List.append_nil known
        exact (ih known _).trans (congrArg (rest.foldlM (readNext band)) hnone.symm)

/-- What a market gives by itself: rules, or nothing if it is inactive or cannot be used. -/
def alone (band : Decimal) (market : Payload) : Except Failure (Option TradingRules) :=
  (readMarket band [] "" market).map Reading.rules?

/-- Rules with those of one more market, unless their symbol is there already. -/
def extend (known : List TradingRules) : Option TradingRules → List TradingRules
  | some rules => if known.any (·.symbol.same rules.symbol) then known else known ++ [rules]
  | none => known

/-- An inactive market is passed over, whatever else it says. -/
theorem readMarket_of_inactive (h : IsInactive market) :
    readMarket band known symbol market = .ok .inactive := by
  rw [readMarket, bind_of_eq_ok h]
  rfl

/-- A market that is not inactive is read by its offer. -/
theorem readMarket_of_not_inactive (hmarket : market.IsRecord) (h : ¬ IsInactive market) :
    readMarket band known symbol market = place known symbol (offer band market) := by
  obtain ⟨active, hactive⟩ := hmarket.exists_field? "active"
  obtain ⟨info, hinfo⟩ := hmarket.exists_field? "info"
  rw [readMarket, bind_of_eq_ok hactive, offer, bind_of_eq_ok hinfo]
  split
  · exact absurd hactive h
  · rw [bind_of_eq_ok hinfo]
    rfl

/-- A market adds what it gives by itself, unless that symbol is there already. -/
theorem readNext_eq (hmarket : entry.2.IsRecord) :
    readNext band known entry = (alone band entry.2).map (extend known) := by
  by_cases hinactive : IsInactive entry.2
  · rw [readNext, alone, readMarket_of_inactive hinactive, readMarket_of_inactive hinactive]
    exact congrArg Except.ok (List.append_nil known)
  · rw [readNext, alone, readMarket_of_not_inactive hmarket hinactive,
      readMarket_of_not_inactive hmarket hinactive]
    -- The markets known so far decide only whether rules that were read count as a duplicate.
    cases offer band entry.2 with
    | error failure =>
      rw [place, place]
      split
      · exact congrArg Except.ok (List.append_nil known)
      · rfl
    | ok rules =>
      rw [place, place]
      split
      · rfl
      · change _ = Except.ok (extend known (some rules))
        rw [extend]
        split
        · exact congrArg Except.ok (List.append_nil known)
        · rfl

/-- A market that can be read: it does not stop a client. -/
def Tolerable (band : Decimal) (market : Payload) : Prop :=
  ∃ own, alone band market = .ok own

/-- An inactive market adds no rules. -/
theorem alone_of_inactive (h : IsInactive market) : alone band market = .ok none := by
  rw [alone, readMarket_of_inactive h]
  rfl

/-- What is not excused in metadata is a value of the wrong kind. -/
theorem eq_of_not_isExcused {failure : Failure} (h : failure.OfMetadata)
    (hnot : ¬ failure.IsExcused) : failure = .notRecord ∨ failure = .unusable := by
  cases failure with
  | notRecord => exact .inl rfl
  | unusable => exact .inr rfl
  | arithmetic | missingField | stepNotPositive | noLotRules => exact absurd rfl hnot
  | _ => exact h.elim

/-- What a market gives by itself fails only for a value of another kind than was expected. -/
theorem alone_failsOnly (hmarket : market.IsRecord) :
    FailsOnly (alone band market) fun failure => failure = .notRecord ∨ failure = .unusable := by
  refine .map fun failure hfailure => ?_
  have hmetadata := readMarket_failsOnly band [] "" market failure hfailure
  refine eq_of_not_isExcused hmetadata fun hexcused => ?_
  -- An inactive market is passed over before any of its contents are looked at.
  have hactive : ¬ IsInactive market := fun hin => by
    cases (readMarket_of_inactive hin).symm.trans hfailure
  rw [readMarket_of_not_inactive hmarket hactive] at hfailure
  cases hoffer : offer band market with
  | error other =>
    rw [hoffer, place] at hfailure
    split at hfailure
    · cases hfailure
    · rename_i hnot
      exact hnot (Except.error.inj hfailure ▸ hexcused)
  | ok rules =>
    rw [hoffer, place] at hfailure
    split at hfailure
    · rw [← Except.error.inj hfailure] at hexcused
      exact Bool.false_ne_true hexcused
    · cases hfailure

/-- A market with values of the expected kinds can be read. -/
theorem tolerable_of_shaped (hmarket : market.IsRecord) (h : Shaped market) :
    Tolerable band market := by
  by_cases hinactive : IsInactive market
  · exact ⟨none, alone_of_inactive hinactive⟩
  · rw [Tolerable, alone, readMarket_of_not_inactive hmarket hinactive]
    cases hoffer : offer band market with
    | error failure =>
      have hexcused : isUnusableMetadata failure = true := offer_excused hmarket h failure hoffer
      rw [place, if_pos hexcused]
      exact ⟨none, rfl⟩
    | ok rules =>
      rw [place, isAtom_of_offer hmarket h hoffer]
      exact ⟨some rules, rfl⟩

/-- A market with a value of another kind where every market is looked into cannot be tolerated,
unless it is inactive. -/
theorem not_tolerable_of_misshapen (hmarket : market.IsRecord)
    (hid : ∃ id, market.field "id" = .ok id) (hactive : ¬ IsInactive market)
    (h : Misshapen market) : ¬ Tolerable band market := by
  obtain ⟨failure, hoffer, hfailure⟩ := offer_of_misshapen band hmarket hid h
  have hnot : ¬ isUnusableMetadata failure = true := hfailure
  rintro ⟨own, hown⟩
  rw [alone, readMarket_of_not_inactive hmarket hactive, hoffer, place, if_neg hnot] at hown
  cases hown

/-! ## Markets of a list -/

/-- A market with a text as its identifier. -/
def Identified (market : Payload) : Prop :=
  ∃ id, market.field "id" = .ok (.text id)

/-- A market with an identifier has fields. -/
theorem Identified.isRecord (h : Identified market) : market.IsRecord := by
  obtain ⟨id, hid⟩ := h
  cases market with
  | object fields => trivial
  | _ => cases hid

/-- A market with an identifier has the field of it. -/
theorem Identified.exists_field (h : Identified market) : ∃ id, market.field "id" = .ok id := by
  obtain ⟨id, hid⟩ := h
  exact ⟨.text id, hid⟩

/-- A market with an identifier is found by that identifier. -/
theorem Identified.exists_identifier? (h : Identified market) :
    ∃ id, identifier? market = .ok (some id) := by
  obtain ⟨id, hid⟩ := h
  have hhas : market.has "id" = .ok true := by
    cases market with
    | object fields =>
      have hlookup : lookup? fields "id" = some (.text id) := Except.ok.inj (field?_of_field hid)
      obtain ⟨entry, hfind, -⟩ := Option.map_eq_some_iff.1 hlookup
      have hname := List.find?_some hfind
      exact congrArg Except.ok (List.any_eq_true.2 ⟨entry, List.mem_of_find?_eq_some hfind, hname⟩)
    | _ => cases hid
  rw [identifier?, bind_of_eq_ok hhas, if_pos rfl, bind_of_eq_ok hid]
  exact ⟨id, rfl⟩

/-- Markets with identifiers have unified symbols. -/
theorem exists_unifiedSymbols (h : ∀ entry ∈ entries, Identified entry.2) :
    ∃ unified, unifiedSymbols entries = .ok unified := by
  have hreturns : Returns (unifiedSymbols entries) fun _ => True := by
    refine Returns.foldlM (fun known _ entry hentry => ?_) trivial
    obtain ⟨symbol, market⟩ := entry
    obtain ⟨id, hid⟩ : ∃ id, identifier? market = .ok (some id) :=
      (h (symbol, market) hentry).exists_identifier?
    dsimp only
    rw [bind_of_eq_ok hid]
    exact .ok trivial
  obtain ⟨unified, hunified, -⟩ := hreturns
  exact ⟨unified, hunified⟩

/-- The rules that a client reads that knows no markets, from what the venue lists. -/
def load (settings : VenueSettings) (entries : List (String × Payload)) :
    Except Failure (List TradingRules) :=
  ((tradingRules ⟨settings, { markets := .object entries }⟩).run {}).1

/-- The rules of all markets are read from one market after another. -/
theorem load_eq (settings : VenueSettings) (h : ∀ entry ∈ entries, Identified entry.2) :
    load settings entries = entries.foldlM (readNext settings.defaultPriceBand) [] := by
  obtain ⟨unified, hunified⟩ := exists_unifiedSymbols h
  have hanswer : Venue.answer { markets := .object entries } .markets = .ok (.object entries) := rfl
  have hconnect := @run_connect_of_ok ⟨settings, { markets := .object entries }⟩ entries unified
    hanswer hunified {}
  have hnone : ({} : State).markets.isGiven = false := rfl
  rw [load, tradingRules, run_bind, run_ensureMarkets, hnone, if_neg Bool.false_ne_true, hconnect]
  dsimp only
  rw [run_get_bind, run_bind, run_lift, Payload.entries]
  dsimp only
  rw [run_bind, ← run_readMarkets_fst]
  -- what is noted at the end does not change the rules
  split
  · rename_i hrun
    rw [hrun]
    rfl
  · rename_i hrun
    rw [hrun]

/-- Markets can be read if each of them can be. -/
theorem foldlM_readNext_returns_iff (h : ∀ entry ∈ entries, entry.2.IsRecord) :
    (∃ rules, entries.foldlM (readNext band) known = .ok rules) ↔
      ∀ entry ∈ entries, Tolerable band entry.2 := by
  -- the rules in front of a market do not decide whether it can be read
  induction entries generalizing known with
  | nil => exact ⟨fun _ => List.forall_mem_nil _, fun _ => ⟨known, rfl⟩⟩
  | cons entry rest ih =>
    obtain ⟨hentry, hrest⟩ := List.forall_mem_cons.1 h
    rw [List.forall_mem_cons, List.foldlM_cons, readNext_eq hentry, Tolerable]
    cases alone band entry.2 with
    | error failure =>
      refine ⟨?_, ?_⟩
      · rintro ⟨rules, ⟨⟩⟩
      · rintro ⟨⟨own, ⟨⟩⟩, -⟩
    | ok own =>
      have hown : ∃ found, (Except.ok own : Except Failure _) = .ok found := ⟨own, rfl⟩
      rw [and_iff_right hown]
      exact ih hrest

/-- Rules behind a market are those before it, or those of the market. -/
theorem mem_extend {found : TradingRules} (h : rules ∈ extend known (some found)) :
    rules ∈ known ∨ rules = found := by
  rw [extend] at h
  split at h
  · exact .inl h
  · simpa using h

/-- Rules that were read are those that some market gives by itself. -/
theorem mem_of_foldlM_readNext (h : ∀ entry ∈ entries, entry.2.IsRecord)
    (hresult : entries.foldlM (readNext band) known = .ok result) (hrules : rules ∈ result) :
    rules ∈ known ∨ ∃ entry ∈ entries, alone band entry.2 = .ok (some rules) := by
  induction entries generalizing known with
  | nil =>
    obtain rfl : known = result := Except.ok.inj hresult
    exact .inl hrules
  | cons entry rest ih =>
    obtain ⟨hentry, hrest⟩ := List.forall_mem_cons.1 h
    rw [List.foldlM_cons, readNext_eq hentry] at hresult
    obtain ⟨next, hnext, hresult⟩ := bind_eq_ok hresult
    obtain ⟨own, hown, rfl⟩ := map_eq_ok hnext
    rcases ih hrest hresult with hmem | ⟨other, hother, halone⟩
    · cases own with
      | none => exact .inl hmem
      | some found =>
        rcases mem_extend hmem with hmem | rfl
        · exact .inl hmem
        · exact .inr ⟨entry, List.mem_cons_self, hown⟩
    · exact .inr ⟨other, List.mem_cons_of_mem _ hother, halone⟩

/-- Rules of another symbol change nothing for one more market. -/
theorem extend_insert {first last : List TradingRules} {own : Option TradingRules}
    (hother : ∀ other, own = some other → rules.symbol.same other.symbol = false) :
    ∃ added, extend (first ++ last) own = first ++ (last ++ added) ∧
      extend (first ++ rules :: last) own = first ++ rules :: (last ++ added) := by
  cases own with
  | none => exact ⟨[], by simp [extend], by simp [extend]⟩
  | some other =>
    have hany : (first ++ rules :: last).any (·.symbol.same other.symbol) =
        (first ++ last).any (·.symbol.same other.symbol) := by
      simp [hother other rfl]
    rw [extend, extend, hany]
    split
    · exact ⟨[], by simp, by simp⟩
    · exact ⟨[other], by simp, by simp⟩

/-- A market that adds no rules does not change what the markets behind it add. -/
theorem foldlM_readNext_insert (h : ∀ entry ∈ entries, entry.2.IsRecord)
    {first last : List TradingRules}
    (hother : ∀ entry ∈ entries, ∀ other, alone band entry.2 = .ok (some other) →
      rules.symbol.same other.symbol = false)
    (hresult : entries.foldlM (readNext band) (first ++ last) = .ok result) :
    ∃ more, result = first ++ more ∧
      entries.foldlM (readNext band) (first ++ rules :: last) = .ok (first ++ rules :: more) := by
  -- what the markets add stands behind the rules that are put in, and `last` collects it
  induction entries generalizing last with
  | nil =>
    obtain rfl : first ++ last = result := Except.ok.inj hresult
    exact ⟨last, rfl, rfl⟩
  | cons entry rest ih =>
    obtain ⟨hentry, hrest⟩ := List.forall_mem_cons.1 h
    obtain ⟨hown, hlater⟩ := List.forall_mem_cons.1 hother
    rw [List.foldlM_cons, readNext_eq hentry] at hresult ⊢
    obtain ⟨next, hnext, hresult⟩ := bind_eq_ok hresult
    obtain ⟨own, halone, rfl⟩ := map_eq_ok hnext
    obtain ⟨added, hwithout, hwith⟩ := @extend_insert rules first last own fun other hsome =>
      hown other (hsome ▸ halone)
    rw [hwithout] at hresult
    obtain ⟨more, hmore, hinserted⟩ := ih hrest hlater hresult
    refine ⟨more, hmore, ?_⟩
    rw [halone, Except.map, hwith]
    exact hinserted

/-- If one cannot be, that is for a value of the wrong kind. -/
theorem foldlM_readNext_failsOnly (h : ∀ entry ∈ entries, entry.2.IsRecord) :
    FailsOnly (entries.foldlM (readNext band) known) fun failure =>
      failure = .notRecord ∨ failure = .unusable := by
  refine .foldlM (fun known entry hentry => ?_) known
  rw [readNext_eq (h entry hentry)]
  exact .map (alone_failsOnly (h entry hentry))

/-- What a market of its own symbol adds does not change what the others add. -/
theorem foldlM_readNext_middle {own : Option TradingRules}
    (h : ∀ entry ∈ before ++ (symbol, market) :: after, entry.2.IsRecord)
    (hown : alone band market = .ok own)
    (hfresh : ∀ rules, own = some rules → ∀ entry ∈ before ++ after, ∀ other,
      alone band entry.2 = .ok (some other) → other.symbol.same rules.symbol = false)
    (hresult : (before ++ after).foldlM (readNext band) [] = .ok result) :
    ∃ first last, result = first ++ last ∧
      (before ++ (symbol, market) :: after).foldlM (readNext band) [] =
        .ok (first ++ own.toList ++ last) := by
  simp only [List.forall_mem_append, List.forall_mem_cons] at h hfresh
  obtain ⟨hbefore, hmarket, hafter⟩ := h
  rw [List.foldlM_append] at hresult ⊢
  obtain ⟨first, hfirst, hlater⟩ := bind_eq_ok hresult
  rw [bind_of_eq_ok hfirst, List.foldlM_cons, readNext_eq hmarket, hown, Except.map]
  cases own with
  | none =>
    refine ⟨result, [], by simp, ?_⟩
    rw [Option.toList_none, List.append_nil, List.append_nil]
    exact hlater
  | some rules =>
    obtain ⟨hfront, hback⟩ := hfresh rules rfl
    -- the rules in front do not have its symbol, so that its own are added
    have hnew : first.any (·.symbol.same rules.symbol) = false := by
      refine List.any_eq_false.2 fun other hother => ?_
      rcases mem_of_foldlM_readNext hbefore hfirst hother with hnil | ⟨entry, hentry, halone⟩
      · cases hnil
      · simp [hfront entry hentry other halone]
    have hother : ∀ entry ∈ after, ∀ other, alone band entry.2 = .ok (some other) →
        rules.symbol.same other.symbol = false := by
      intro entry hentry other halone
      refine Bool.eq_false_iff.2 fun hsame => ?_
      exact Bool.eq_false_iff.1 (hback entry hentry other halone) (MarketId.same_symm hsame)
    have hextend : extend first (some rules) = first ++ [rules] := by
      rw [extend, hnew, if_neg Bool.false_ne_true]
    rw [← List.append_nil first] at hlater
    obtain ⟨last, hlast, hinserted⟩ := foldlM_readNext_insert hafter hother hlater
    refine ⟨first, last, hlast, ?_⟩
    rw [hextend, Option.toList_some, List.append_assoc]
    exact hinserted

/-! ## What one market costs the others -/

/-- What a market of a list costs the others. -/
structure CostsItself (settings : VenueSettings) (before : List (String × Payload))
    (symbol : String) (market : Payload) (after : List (String × Payload)) : Prop where
  /-- There are rules exactly if each market can be read. -/
  returns_iff : (∃ rules, load settings (before ++ (symbol, market) :: after) = .ok rules) ↔
    ∀ entry ∈ before ++ (symbol, market) :: after, Tolerable settings.defaultPriceBand entry.2
  /-- If one cannot be, that is for a value of the wrong kind. -/
  failsOnly : FailsOnly (load settings (before ++ (symbol, market) :: after)) fun failure =>
    failure = .notRecord ∨ failure = .unusable
  /-- A market that can be read, and whose symbol is not that of another one's rules, leaves the
  rules of the others as they are without it. -/
  others (own : Option TradingRules) (hown : alone settings.defaultPriceBand market = .ok own)
    (hfresh : ∀ rules, own = some rules → ∀ entry ∈ before ++ after, ∀ other,
      alone settings.defaultPriceBand entry.2 = .ok (some other) →
        other.symbol.same rules.symbol = false)
    (rules : List TradingRules) (hrules : load settings (before ++ after) = .ok rules) :
    ∃ first last, rules = first ++ last ∧
      load settings (before ++ (symbol, market) :: after) = .ok (first ++ own.toList ++ last)
  /-- A market with values of the expected kinds can be read, whatever they are. -/
  tolerable_of_shaped (hshaped : Shaped market) : Tolerable settings.defaultPriceBand market
  /-- One with a value of another kind where every market is looked into cannot. -/
  not_tolerable (hactive : ¬ IsInactive market) (hmisshapen : Misshapen market) :
    ¬ Tolerable settings.defaultPriceBand market

/-- In a list of markets with identifiers, each market costs only itself if it can be read: without
it the others have the same rules. A market that cannot be read costs all others theirs. -/
theorem costsItself_of_identified (settings : VenueSettings)
    (h : ∀ entry ∈ before ++ (symbol, market) :: after, Identified entry.2) :
    CostsItself settings before symbol market after := by
  have hrecords : ∀ entry ∈ before ++ (symbol, market) :: after, entry.2.IsRecord :=
    fun entry hentry => (h entry hentry).isRecord
  have hmarket : Identified market := h (symbol, market) (by simp)
  have hload := load_eq settings h
  refine ⟨?_, ?_, ?_, tolerable_of_shaped hmarket.isRecord, ?_⟩
  · rw [hload]
    exact foldlM_readNext_returns_iff hrecords
  · rw [hload]
    exact foldlM_readNext_failsOnly hrecords
  · intro own hown hfresh rules hrules
    rw [load_eq settings fun entry hentry => h entry (by
      rcases List.mem_append.1 hentry with hentry | hentry <;> simp [hentry])] at hrules
    rw [hload]
    exact foldlM_readNext_middle hrecords hown hfresh hrules
  · exact not_tolerable_of_misshapen hmarket.isRecord hmarket.exists_field

/-! ### Limits that are null -/

namespace Sample

/-- The steps of a market. -/
def steps : Payload :=
  .object [("amount", "0.001"), ("price", "0.1")]

/-- A market with steps. -/
def usable : String × Payload :=
  ("BTC/USDT:USDT", .object [("id", "BTCUSDT"), ("limits", .object []), ("precision", steps)])

/-- A market without steps. -/
def stepless : Payload :=
  .object [("id", "ETHUSDT"), ("limits", .object [])]

/-- A market with steps whose limits are null. -/
def limitless : Payload :=
  .object [("id", "ETHUSDT"), ("limits", .null), ("precision", steps)]

end Sample

/-- A market without steps costs only itself. A market with limits that are null costs the other
market its rules, too. -/
theorem costsItself_sample :
    (∃ rules, load {} [Sample.usable] = .ok rules ∧
      load {} [Sample.usable, ("ETH/USDT:USDT", Sample.stepless)] = .ok rules) ∧
    ¬ ∃ rules, load {} [Sample.usable, ("ETH/USDT:USDT", Sample.limitless)] = .ok rules := by
  have husable : Identified Sample.usable.2 := ⟨"BTCUSDT", rfl⟩
  have hstepless : Identified Sample.stepless := ⟨"ETHUSDT", rfl⟩
  have hlimitless : Identified Sample.limitless := ⟨"ETHUSDT", rfl⟩
  constructor
  -- A missing step is excused: the other market keeps its rules.
  · have hcosts : CostsItself {} [Sample.usable] "ETH/USDT:USDT" Sample.stepless [] :=
      costsItself_of_identified {} (by simp [husable, hstepless])
    obtain ⟨rules, hrules⟩ : ∃ rules, load {} [Sample.usable] = .ok rules := ⟨_, rfl⟩
    obtain ⟨first, last, rfl, hload⟩ := hcosts.others none rfl (by simp) rules hrules
    exact ⟨first ++ last, hrules, by simpa using hload⟩
  · have hcosts : CostsItself {} [Sample.usable] "ETH/USDT:USDT" Sample.limitless [] :=
      costsItself_of_identified {} (by simp [husable, hlimitless])
    intro hload
    refine hcosts.not_tolerable ?_ (.limits ?_ ?_)
      (hcosts.returns_iff.1 hload ("ETH/USDT:USDT", Sample.limitless) (by simp))
    · simp [IsInactive, Sample.limitless, Payload.field?, Payload.entries, lookup?, Except.map]
    · rintro ⟨info, filters, hinfo, -⟩
      cases hinfo
    · exact fun hrecord => hrecord .null rfl

/-- A client reads the rules of the usable market where it stands alone, and those of none beside a
market whose limits are null. -/
theorem not_load_limitless :
    (∃ rules, load {} [Sample.usable] = .ok [rules]) ∧
      load {} [Sample.usable, ("ETH/USDT:USDT", Sample.limitless)] = .error .notRecord :=
  ⟨⟨_, rfl⟩, rfl⟩

end Client

end OrderTicket
