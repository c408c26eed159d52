import Mathlib.Data.Set.Card
import OrderTicket.Proofs.Rules.Registry
import OrderTicket.Proofs.Text.UpperCase

/-!
# Symbols that can be looked up

A table has its rules under the symbols that the venue publishes, and a lookup asks for the upper
case of the symbol that it is given. The two agree on the symbols that are their own upper case.
Any other symbol is in the table, but no lookup returns its rules: what is asked for is its upper
case, which may be another market of the table, or none.

* `MarketId.isCapital`: the symbols that are their own upper case.
* `Registry.FindsItself`: all lookups of a symbol lead to its own rules.
* `Registry.mem_answers`, `Registry.ncard_answers`: the rules that a lookup may return, and how
  many they are.
* `Registry.serves_run`: what can be looked up, for every sequence of requests.
-/

namespace OrderTicket

/-- Whether an identifier is a name that is its own upper case. -/
def MarketId.isCapital : MarketId → Bool
  | name s => Text.upper s == s
  | other _ => false

/-- An identifier is in capitals if it is a text that is its own upper case. -/
theorem MarketId.isCapital_iff {id : MarketId} :
    id.isCapital = true ↔ ∃ s, id = name s ∧ Text.upper s = s := by
  cases id <;> simp [isCapital]

open RuleTable

namespace RuleTable

/-- The symbols of a table are those of its rules, in another order. -/
theorem symbols_ofList_perm (rules : List TradingRules) :
    (ofList rules).symbols.Perm (rules.map (·.symbol)) := by
  have hkeys : (ofList rules).entries.map (·.1) = rules.map (·.symbol) := by
    simp [ofList]
  rw [symbols, hkeys]
  exact List.mergeSort_perm _ _

theorem size_ofList (rules : List TradingRules) : (ofList rules).size = rules.length := by
  simp [ofList, size]

/-- Markets with names of their own are different. -/
theorem Distinct.nodup_capital {rules : List TradingRules} (h : Distinct rules) :
    (rules.filter (·.symbol.isCapital)).Nodup := by
  rw [List.Nodup, List.pairwise_filter]
  refine h.2.imp fun {a b} hsame ha hb heq => ?_
  obtain ⟨s, hs, -⟩ := MarketId.isCapital_iff.1 ha
  rw [← heq, hs, MarketId.same_name, beq_self_eq_true] at hsame
  exact Bool.noConfusion hsame

end RuleTable

namespace Registry

variable {registry : Registry} {requests : List Request} {rules : TradingRules} {name : String}

/-! ## Lookups -/

/-- All lookups of a symbol lead to the rules of the market that has this symbol. -/
def FindsItself (registry : Registry) (name : String) : Prop :=
  ∃ rules, rules.symbol = .name name ∧ registry.get name = .ok rules ∧
    registry.find? name = some rules ∧ registry.contains (.text name) = true

/-- The rules that a lookup may return. -/
def answers (registry : Registry) : Set TradingRules :=
  {rules | ∃ query, registry.get query = .ok rules}

/-- Rules are given for a name if they are found. -/
theorem get_eq_ok_iff : registry.get name = .ok rules ↔ registry.find? name = some rules := by
  rw [get, find?]
  cases registry.table.find? (Text.upper name) <;> simp

/-- A registry contains a name if it finds rules for it. -/
theorem contains_text (registry : Registry) (name : String) :
    registry.contains (.text name) = (registry.find? name).isSome :=
  contains_eq_isSome ..

/-- A lookup does not see whether it is given a symbol or its upper case. -/
theorem find?_upper (registry : Registry) (name : String) :
    registry.find? (Text.upper name) = registry.find? name := by
  rw [find?, find?, Text.upper_upper]

namespace Follows

variable (h : registry.Follows requests)
include h

/-- A symbol is listed if it is that of a market that is served. -/
theorem mem_symbols {id : MarketId} :
    id ∈ registry.table.symbols ↔ ∃ rules ∈ served requests, rules.symbol = id := by
  rw [h.table_eq, (symbols_ofList_perm _).mem_iff, List.mem_map]

/-- A listed symbol finds its own rules exactly if it is its own upper case. -/
theorem findsItself_iff (hlisted : .name name ∈ registry.table.symbols) :
    registry.FindsItself name ↔ Text.upper name = name := by
  constructor
  · rintro ⟨rules, hsymbol, -, hfind, -⟩
    obtain ⟨-, hupper⟩ := (h.find?_eq_some_iff name rules).1 hfind
    exact MarketId.name.inj (hupper.symm.trans hsymbol)
  · intro hupper
    obtain ⟨rules, hserved, hsymbol⟩ := h.mem_symbols.1 hlisted
    have hfind : registry.find? name = some rules :=
      (h.find?_eq_some_iff name rules).2 ⟨hserved, by rw [hupper, hsymbol]⟩
    exact ⟨rules, hsymbol, get_eq_ok_iff.2 hfind, hfind, by rw [contains_text, hfind]; rfl⟩

/-- Lookups return the rules that are served under symbols in upper case. -/
theorem mem_answers :
    rules ∈ registry.answers ↔ rules ∈ served requests ∧ rules.symbol.isCapital = true := by
  constructor
  · rintro ⟨query, hget⟩
    obtain ⟨hserved, hsymbol⟩ := (h.find?_eq_some_iff query rules).1 (get_eq_ok_iff.1 hget)
    exact ⟨hserved, MarketId.isCapital_iff.2 ⟨_, hsymbol, Text.upper_upper query⟩⟩
  · rintro ⟨hserved, hcapital⟩
    obtain ⟨name, hsymbol, hupper⟩ := MarketId.isCapital_iff.1 hcapital
    exact ⟨name, get_eq_ok_iff.2 ((h.find?_eq_some_iff name rules).2
      ⟨hserved, by rw [hsymbol, hupper]⟩)⟩

/-- There are as many answers as listed symbols in upper case. -/
theorem ncard_answers :
    registry.answers.ncard = registry.table.symbols.countP (·.isCapital) := by
  classical
  have hanswers : registry.answers =
      ((served requests).filter (·.symbol.isCapital)).toFinset := by
    ext rules
    simpa using h.mem_answers
  rw [hanswers, Set.ncard_coe_finset,
    List.toFinset_card_of_nodup (distinct_served requests).nodup_capital, h.table_eq,
    (symbols_ofList_perm _).countP_eq, List.countP_map, List.countP_eq_length_filter]
  rfl

end Follows

/-! ## What can be looked up -/

/-- The symbols of a registry that lookups reach. -/
structure Serves (registry : Registry) : Prop where
  /-- A listed symbol finds its own rules exactly if it is its own upper case. -/
  findsItself_iff (name : String) (hlisted : .name name ∈ registry.table.symbols) :
    registry.FindsItself name ↔ Text.upper name = name
  /-- Lookups of any symbol answer as those of its upper case. -/
  upper_eq (name : String) : registry.find? name = registry.find? (Text.upper name) ∧
    registry.contains (.text name) = registry.contains (.text (Text.upper name)) ∧
    ∀ rules, registry.get name = .ok rules ↔ registry.get (Text.upper name) = .ok rules
  /-- No lookup returns the rules of a symbol that is not its own upper case. -/
  capital_of_answer (query : String) (rules : TradingRules)
      (hget : registry.get query = .ok rules) :
    rules.symbol ∈ registry.table.symbols ∧ ∃ name, rules.symbol = .name name ∧
      Text.upper name = name
  /-- The number of markets is that of the rules that lookups can return and of the symbols that
  none of them reaches. -/
  size_eq : registry.table.size =
    registry.answers.ncard + registry.table.symbols.countP (!·.isCapital)

/-- After any requests to an empty registry the lookups of a listed symbol lead to its own rules if
it is its own upper case, and to those of its upper case, if any, else. The number of markets
exceeds that of the rules that can be returned by the number of the other symbols. -/
theorem serves_run (quoteAsset : String) (requests : List Request) :
    (run { quoteAsset } requests).Serves := by
  have h : (run { quoteAsset } requests).Follows requests :=
    follows_of_table (table_run ..) (version_run ..)
  refine ⟨fun name hlisted => h.findsItself_iff hlisted, fun name => ?_, fun query rules hget => ?_,
    ?_⟩
  · simp only [contains_text, get_eq_ok_iff, find?_upper, true_and, implies_true]
  · obtain ⟨hserved, hcapital⟩ := h.mem_answers.1 ⟨query, hget⟩
    exact ⟨h.mem_symbols.2 ⟨rules, hserved, rfl⟩, MarketId.isCapital_iff.1 hcapital⟩
  · have hlength : (run { quoteAsset } requests).table.size =
        (run { quoteAsset } requests).table.symbols.length := by
      rw [h.table_eq, size_ofList, (symbols_ofList_perm _).length_eq, List.length_map]
    rw [hlength, h.ncard_answers, List.length_eq_countP_add_countP (·.isCapital)]
    simp

/-- A registry with one market, published in small letters, lists its symbol and counts it. No
lookup knows it, and none returns any rules. -/
theorem not_findsItself_small :
    (run {} [.reload [sampleRules "btcusdt"]]).table.symbols = [.name "btcusdt"] ∧
      (run {} [.reload [sampleRules "btcusdt"]]).table.size = 1 ∧
      (run {} [.reload [sampleRules "btcusdt"]]).get "btcusdt" =
        .error (.unknownSymbol "btcusdt") ∧
      (run {} [.reload [sampleRules "btcusdt"]]).find? "btcusdt" = none ∧
      (run {} [.reload [sampleRules "btcusdt"]]).contains (.text "btcusdt") = false ∧
      (run {} [.reload [sampleRules "btcusdt"]]).answers.ncard = 0 := by
  have h : (run {} [.reload [sampleRules "btcusdt"]]).Follows [.reload [sampleRules "btcusdt"]] :=
    follows_of_table (table_run ..) (version_run ..)
  have hsymbols : (run {} [.reload [sampleRules "btcusdt"]]).table.symbols = [.name "btcusdt"] := by
    rw [h.table_eq]
    exact List.perm_singleton.1 (symbols_ofList_perm [sampleRules "btcusdt"])
  have hnone : (run {} [.reload [sampleRules "btcusdt"]]).find? "btcusdt" = none := by
    refine Option.eq_none_iff_forall_ne_some.2 fun rules hrules => ?_
    obtain ⟨hserved, hsymbol⟩ := (h.find?_eq_some_iff _ rules).1 hrules
    obtain rfl : rules = sampleRules "btcusdt" := List.mem_singleton.1 hserved
    exact absurd (MarketId.name.inj hsymbol) (by decide)
  refine ⟨hsymbols, rfl, ?_, hnone, ?_, ?_⟩
  · rw [find?] at hnone
    rw [get, hnone]
  · rw [contains_text, hnone]
    rfl
  · rw [h.ncard_answers, hsymbols]
    decide

end Registry

end OrderTicket
