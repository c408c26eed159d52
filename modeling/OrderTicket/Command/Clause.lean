import OrderTicket.Command.Number
import OrderTicket.Order
import OrderTicket.Text.LetterCase

/-!
# Clauses of a command

The words after the action of a command form clauses: a size, a leverage, a price, a keyword with
its value. A clause is read from a word and the words behind it, without regard to the clauses
before it; some clauses own one or two of the words behind.

* `Command.Clause`: what a clause says.
* `Clause.read`: the clause that starts at a word, and how many further words it owns, never more
  than there are (`Clause.read_snd_le`).
* `Clause.readAll`: all clauses of a list of words, one after the other (`Clause.readAll_cons`).
-/

namespace OrderTicket.Command

/-- Where a protective order triggers, relative to the entry. -/
inductive Protection where
  | stopLoss
  | takeProfit
  | trailing
deriving DecidableEq, Repr

/-- The name of a protection in messages. -/
def Protection.label : Protection → String
  | stopLoss => "Stop loss"
  | takeProfit => "Take profit"
  | trailing => "Trailing stop"

/-- The short keyword of a protection. -/
def Protection.keyword : Protection → String
  | stopLoss => "sl"
  | takeProfit => "tp"
  | trailing => "trail"

/-- The keywords of a protection. -/
def Protection.keywords : Protection → List String
  | stopLoss => ["sl", "stoploss"]
  | takeProfit => ["tp", "takeprofit"]
  | trailing => ["trail", "trailing"]

/-- What a clause says. Numbers are kept as typed. -/
inductive Clause where
  /-- The order may only make a position smaller. -/
  | reduce
  /-- The order is a market order. -/
  | market
  /-- The order is a limit order, perhaps with its price. -/
  | limit (price : Option String)
  /-- The order is a limit order at a price. -/
  | atPrice (price : String)
  /-- The wanted leverage. -/
  | leverage (number : String)
  /-- A leverage keyword without its value. -/
  | leverageMissing
  /-- A protection at a distance. -/
  | protection (kind : Protection) (number : String)
  /-- A protection keyword at the end of the command. -/
  | protectionMissing (kind : Protection)
  /-- A protection keyword with something else than a percentage behind it. -/
  | protectionInvalid (kind : Protection) (word : String)
  /-- A size. -/
  | size (number : String) (unit : SizeUnit)
  /-- A word for infinity or for no number. -/
  | notFinite (word : String)
  /-- A symbol, in upper case. -/
  | symbol (word : String)
  /-- A word that starts no clause. -/
  | unrecognized (word : String)
deriving DecidableEq, Repr

namespace Clause

/-- The words for an order that only makes a position smaller. -/
def reduceWords : List String := ["reduce", "reduce_only", "reduceonly", "red"]

/-- The words for a market order. -/
def marketWords : List String := ["market", "mkt"]

/-- The words for a limit order. -/
def limitWords : List String := ["limit", "lmt"]

/-- The words in front of a leverage. -/
def leverageWords : List String := ["leverage", "lev"]

/-- The words for infinity or for no number. -/
def notFiniteWords : List String := ["inf", "+inf", "-inf", "infinity", "-infinity", "nan", "-nan"]

/-- The marks of a quote amount. -/
def quoteUnits : List String := ["u", "usdt", "usd", "busd", "usdc"]

/-- A leverage in one word: a number after or before an `x`. -/
def leverage? : List Char → Option String
  | 'x' :: rest => number? rest
  | cs => numberBefore? [['x']] cs

/-- A limit price in one word. -/
def atPrice? : List Char → Option String
  | '@' :: rest => number? rest
  | _ => none

/-- A size in one word: the number, and the unit if it is marked. -/
def size? (cs : List Char) : Option (String × Option SizeUnit) :=
  match splitNumber? cs with
  | none => none
  | some (number, rest) =>
    let unit := String.ofList rest
    if rest.isEmpty then some (.ofList number, none)
    else if unit == "%" then some (.ofList number, some .percent)
    else if quoteUnits.contains unit then some (.ofList number, some .quote)
    else none

/-- Whether a word is a symbol: capital letters and digits of ASCII only. -/
def isSymbol (s : String) : Bool :=
  let cs := s.toList
  !cs.isEmpty && cs.all fun c => c.isUpper || c.isDigit

/-- The protection whose keyword a word is, or two words are together, and how many words that
takes. -/
def protectionKeyword? (word : String) (next : Option String) : Option (Protection × Nat) :=
  if word == "stop" && next == some "loss" then some (.stopLoss, 2)
  else if word == "take" && next == some "profit" then some (.takeProfit, 2)
  else if Protection.stopLoss.keywords.contains word then some (.stopLoss, 1)
  else if Protection.takeProfit.keywords.contains word then some (.takeProfit, 1)
  else if Protection.trailing.keywords.contains word then some (.trailing, 1)
  else none

/-- The value of a protection whose keyword took `taken` words, the first of which is not among the
words `behind`. -/
def protectionValue (kind : Protection) (taken : Nat) (behind : List String) : Clause × Nat :=
  match behind[taken - 1]? with
  | none => (protectionMissing kind, taken - 1)
  | some raw =>
    match percentage? (Text.lower raw).toList with
    | some number => (protection kind number, taken)
    | none => (protectionInvalid kind raw, taken)

/-- A protection with its value in one word. -/
def protection? (cs : List Char) : Option Clause :=
  [Protection.stopLoss, .takeProfit, .trailing].findSome? fun kind =>
    (percentageAfter? kind.keywords cs).map (protection kind)

/-- The clause of a word that is no keyword, price, leverage or protection, and how many of the
words behind it belong to it. -/
def readValue (raw : String) (next : Option String) : Clause × Nat :=
  let word := Text.lower raw
  match size? word.toList with
  | some (number, some unit) => (size number unit, 0)
  | some (number, none) =>
    if next.any quoteUnits.contains then (size number .quote, 1) else (size number .base, 0)
  | none =>
    if notFiniteWords.contains word then (notFinite raw, 0)
    else
      let symbolWord := Text.upper raw
      if isSymbol symbolWord then (symbol symbolWord, 0) else (unrecognized raw, 0)

/-- The clause that starts at the word `raw`, and how many of the words `behind` belong to it. The
first rule that fits decides. -/
def read (raw : String) (behind : List String) : Clause × Nat :=
  let word := Text.lower raw
  let next := behind.head?.map Text.lower
  -- keywords first; some of them own the word behind
  if reduceWords.contains word then (reduce, 0)
  else if marketWords.contains word then (market, 0)
  else if limitWords.contains word then
    match next.bind (number? ·.toList) with
    | some price => (limit (some price), 1)
    | none => (limit none, 0)
  else
    match atPrice? word.toList with
    | some price => (atPrice price, 0)
    | none =>
      if leverageWords.contains word then
        match next.bind (number? ·.toList) with
        | some number => (leverage number, 1)
        | none => (leverageMissing, 0)
      else
        match leverage? word.toList with
        | some number => (leverage number, 0)
        | none =>
          match protectionKeyword? word next with
          | some (kind, taken) => protectionValue kind taken behind
          | none =>
            match protection? word.toList with
            | some clause => (clause, 0)
            | none => readValue raw next

theorem protectionKeyword?_snd_le {word : String} {behind : List String} {kind : Protection}
    {taken : Nat}
    (h : protectionKeyword? word (behind.head?.map Text.lower) = some (kind, taken)) :
    taken ≤ behind.length + 1 := by
  cases behind <;> grind [protectionKeyword?]

theorem protectionValue_snd_le (kind : Protection) {taken : Nat} {behind : List String}
    (h : taken ≤ behind.length + 1) : (protectionValue kind taken behind).2 ≤ behind.length := by
  unfold protectionValue
  split
  · simpa using h
  · rename_i raw hraw
    obtain ⟨hlt, -⟩ := List.getElem?_eq_some_iff.1 hraw
    split <;> simp <;> omega

theorem readValue_snd_le (raw : String) (behind : List String) :
    (readValue raw (behind.head?.map Text.lower)).2 ≤ behind.length := by
  unfold readValue
  cases behind <;> grind

theorem length_pos_of_next {α : Type} {behind : List String} {read : String → Option α} {x : α}
    (h : (behind.head?.map Text.lower).bind read = some x) : 1 ≤ behind.length := by
  cases behind with
  | nil => simp at h
  | cons word rest => simp

/-- A clause owns no more words than there are. -/
theorem read_snd_le (raw : String) (behind : List String) :
    (read raw behind).2 ≤ behind.length := by
  -- rule by rule: no rule owns more than the words that it looked at
  simp only [read]
  split
  · exact Nat.zero_le _
  split
  · exact Nat.zero_le _
  split
  · split
    · exact length_pos_of_next ‹_›
    · exact Nat.zero_le _
  split
  · exact Nat.zero_le _
  split
  · split
    · exact length_pos_of_next ‹_›
    · exact Nat.zero_le _
  split
  · exact Nat.zero_le _
  split
  · exact protectionValue_snd_le _ (protectionKeyword?_snd_le ‹_›)
  split
  · exact Nat.zero_le _
  · exact readValue_snd_le raw behind

/-- The clauses of a list of words, of which the first `owned` belong to an earlier clause. -/
def readFrom : Nat → List String → List Clause
  | _, [] => []
  | owned + 1, _ :: rest => readFrom owned rest
  | 0, word :: rest =>
    let (clause, owned) := read word rest
    clause :: readFrom owned rest

/-- All clauses of a list of words, in order. -/
def readAll (words : List String) : List Clause :=
  readFrom 0 words

theorem readFrom_eq_readAll (owned : Nat) (words : List String) :
    readFrom owned words = readAll (words.drop owned) := by
  induction words generalizing owned with
  | nil => cases owned <;> simp [readAll, readFrom]
  | cons word rest ih =>
    cases owned with
    | zero => rfl
    | succ owned => rw [readFrom, ih, List.drop_succ_cons]

@[simp]
theorem readAll_nil : readAll [] = [] :=
  rfl

/-- The next clause starts at the first word that the clause before it does not own. -/
theorem readAll_cons (word : String) (rest : List String) :
    readAll (word :: rest) = (read word rest).1 :: readAll (rest.drop (read word rest).2) := by
  rw [← readFrom_eq_readAll]
  rfl

end Clause

end OrderTicket.Command
