import OrderTicket.Proofs.Command.Entry
import OrderTicket.Proofs.Command.Group
import OrderTicket.Proofs.Text.LetterCase

/-!
# Commands that say the same

This module shows two ways of changing an accepted command that leave its reading as it is. The
words behind the action are cut into groups, one for each clause. The groups may be put in another
order, and each of them may be written in another way. In both cases what has to be shown is that
the groups of the new command are cut at the same places: no group may join the one that is now
behind it.

* `Makes`: a group makes an entry; `Entered.read_flatten` reads groups that are kept apart.
* `read_of_perm`: the groups of a command may stand in any order.
* `Respelled`: two groups that say the same; `read_of_respelled` reads the one as the other.
-/

namespace OrderTicket.Command

open Clause

/-! ## Lists side by side -/

section Lists

variable {α β γ : Type} {R : α → β → Prop} {S : β → γ → Prop}

/-- Lists are related by a composite if there is a list between them. -/
theorem forall₂_comp_iff {as : List α} {cs : List γ} :
    List.Forall₂ (fun a c => ∃ b, R a b ∧ S b c) as cs ↔
      ∃ bs, List.Forall₂ R as bs ∧ List.Forall₂ S bs cs := by
  constructor
  · intro h
    induction h with
    | nil => exact ⟨[], .nil, .nil⟩
    | cons hac _ ih =>
      obtain ⟨b, hab, hbc⟩ := hac
      obtain ⟨bs, has, hcs⟩ := ih
      exact ⟨b :: bs, .cons hab has, .cons hbc hcs⟩
  · rintro ⟨bs, has, hcs⟩
    induction has generalizing cs with
    | nil =>
      cases hcs
      exact .nil
    | cons hab _ ih =>
      cases hcs with
      | cons hbc hcs => exact .cons ⟨_, hab, hbc⟩ (ih hcs)

end Lists

variable {settings : CommandSettings}

/-! ## Groups and entries -/

/-- The group says a clause that makes the entry. -/
def Makes (settings : CommandSettings) (group : List String) (entry : Entry) : Prop :=
  ∃ clause, Says group clause ∧ clause.Gives settings entry

/-- A clause that makes an entry is a term or a symbol. -/
theorem isTerm_of_gives {clause : Clause} {entry : Entry} (h : clause.Gives settings entry) :
    clause.isTerm = true ∨ ∃ word, clause = .symbol word := by
  cases h
  case symbol word market hmarket => exact .inr ⟨word, rfl⟩
  all_goals exact .inl rfl

/-- The groups of an accepted command make entries, unless one of them is a limit keyword without a
price. -/
theorem exists_makes_of_read {text action : String} {words : List String} {reading : Reading}
    (hwords : Text.words text = action :: words) (h : read settings text = .ok reading)
    (hok : reading.ok = true)
    (hlimit : ∀ word, [word] ∈ groups words → Text.lower word ∉ limitWords) :
    ∃ side entries, sideOf? action = some side ∧
      List.Forall₂ (Makes settings) (groups words) entries ∧
        Entered settings side entries reading := by
  have hnone : Clause.limit none ∉ readAll words := by
    intro hmem
    obtain ⟨word, hgroup, hword⟩ := exists_group_of_limit hmem
    exact hlimit word hgroup hword
  obtain ⟨side, entries, hside, hgives, hentered⟩ := exists_entered_of_read hwords h hok hnone
  have hsays : List.Forall₂ Says (groups words) (readAll words) := by
    refine says_groups fun clause hclause => ?_
    obtain ⟨entry, -, hentry⟩ := exists_mem_of_forall₂ hgives hclause
    exact isTerm_of_gives hentry
  exact ⟨side, entries, hside, forall₂_comp_iff.2 ⟨_, hsays, hgives⟩, hentered⟩

/-- A command of groups that are kept apart is read as their entries say. -/
theorem Entered.read_flatten {side : Side} {entries : List Entry} {reading : Reading}
    (h : Entered settings side entries reading) {text action : String}
    {groups : List (List String)} (hwords : Text.words text = action :: groups.flatten)
    (hside : sideOf? action = some side) (hmakes : List.Forall₂ (Makes settings) groups entries)
    (hapart : groups.IsChain Apart) : read settings text = .ok reading := by
  obtain ⟨clauses, hsays, hgives⟩ := forall₂_comp_iff.1 hmakes
  refine h.read_eq hwords hside ?_
  rwa [readAll_flatten hsays hapart]

/-! ## Groups in another order -/

/-- A symbol has letters and digits of ASCII only, and at least one of them. -/
theorem ne_nil_of_isSymbol {word : String} (h : isSymbol word = true) :
    word.toList ≠ [] ∧ ∀ c ∈ word.toList, c.toNat < 128 := by
  simp only [isSymbol, Bool.and_eq_true, Bool.not_eq_true', List.isEmpty_eq_false_iff,
    List.all_eq_true, Bool.or_eq_true] at h
  refine ⟨h.1, fun c hc => ?_⟩
  rcases h.2 c hc with hupper | hdigit
  · obtain ⟨-, hhigh⟩ := Text.toNat_of_isUpper hupper
    omega
  · obtain ⟨-, hhigh⟩ := Text.toNat_of_isDigit hdigit
    omega

/-- A market starts with the word that names it. -/
theorem exists_append_of_resolve {word market : String}
    (h : resolveSymbol? settings word = some market) : ∃ tail, market = word ++ tail := by
  unfold resolveSymbol? at h
  cases hlongest : longestQuote? word (quoteAssets settings) with
  | none =>
    rw [hlongest] at h
    obtain ⟨-, hword⟩ := Option.ite_none_right_eq_some.1 h
    exact ⟨_, (Option.some.inj hword).symm⟩
  | some quote =>
    rw [hlongest] at h
    obtain ⟨-, hword⟩ := Option.ite_none_right_eq_some.1 h
    exact ⟨"", by simpa using hword.symm⟩

/-- The two words of a keyword, read as symbols, do not name the same market: they start with
different letters. -/
theorem not_same_market {kind : Protection} {raw raw' word word' market : String}
    (hpair : (Text.lower raw, Text.lower raw') ∈ kind.pairs)
    (hread : (Clause.read raw []).1 = symbol word) (hread' : (Clause.read raw' []).1 = symbol word')
    (hmarket : resolveSymbol? settings word = some market)
    (hmarket' : resolveSymbol? settings word' = some market) : False := by
  have hpairs : kind.pairs.all (fun pair =>
      pair.1.toList.all (·.toNat < 128) && pair.2.toList.all (·.toNat < 128) &&
        (Text.upper pair.1).toList.head? != (Text.upper pair.2).toList.head?) = true := by
    cases kind <;> decide +kernel
  have hkeyword := List.all_eq_true.1 hpairs _ hpair
  simp only [Bool.and_eq_true, List.all_eq_true, decide_eq_true_eq, bne_iff_ne] at hkeyword
  obtain ⟨⟨hascii, hascii'⟩, hne⟩ := hkeyword
  -- a market starts as the upper case of its keyword does
  have hhead {raw word : String} (hlower : ∀ c ∈ (Text.lower raw).toList, c.toNat < 128)
      (hread : (Clause.read raw []).1 = symbol word)
      (hmarket : resolveSymbol? settings word = some market) :
      market.toList.head? = (Text.upper (Text.lower raw)).toList.head? := by
    obtain ⟨hsymbol, rfl⟩ := isSymbol_of_read hread
    obtain ⟨hnil, hupper⟩ := ne_nil_of_isSymbol hsymbol
    obtain ⟨tail, rfl⟩ := exists_append_of_resolve hmarket
    rw [← Text.upper_of_lower rfl hlower hupper, String.toList_append,
      List.head?_append_of_ne_nil _ hnil]
  exact hne ((hhead hascii hread hmarket).symm.trans (hhead hascii' hread' hmarket'))

/-- Two groups of a command that join are an amount and a unit that was read as a symbol. -/
theorem mem_quoteUnits_of_joins {side : Side} {entries : List Entry} {reading : Reading}
    (hentered : Entered settings side entries reading) {group next : List String}
    {entry entry' : Entry} (hmakes : Makes settings group entry) (hentry : entry ∈ entries)
    (hmakes' : Makes settings next entry') (hentry' : entry' ∈ entries) {raw word : String}
    (hgroup : group = [raw]) (hnext : next.head? = some word)
    (hjoins : Joins (Text.lower raw) (Text.lower word)) :
    next = [word] ∧ Text.lower word ∈ quoteUnits := by
  obtain ⟨clause, hsays, hgives⟩ := hmakes
  obtain ⟨clause', hsays', hgives'⟩ := hmakes'
  subst hgroup
  cases hsays' with
  | term hspells =>
    -- no spelling starts with a word that joins the one in front of it
    cases next with
    | nil => cases hnext
    | cons first rest =>
      cases hnext
      exact absurd hjoins (Spells.not_joins_head hspells)
  | @symbol other symbolWord hread' =>
    cases hnext
    refine ⟨rfl, ?_⟩
    rcases hjoins with ⟨-, hunit⟩ | ⟨kind, hpair⟩
    · exact hunit
    · exfalso
      cases hsays with
      | term hspells => exact Spells.not_pair hspells hpair
      | symbol hread =>
        cases hgives with
        | symbol hmarket =>
          cases hgives' with
          | symbol hmarket' =>
            obtain rfl := hentered.symbol_unique hentry hentry'
            exact not_same_market hpair (congrArg Prod.fst hread) (congrArg Prod.fst hread')
              hmarket hmarket'

/-- The groups of an accepted command may stand in any order, if no limit keyword lacks its price
and no symbol is also a unit. -/
theorem read_of_perm {text text' action : String} {words : List String}
    {groups' : List (List String)} {reading : Reading}
    (hwords : Text.words text = action :: words) (h : read settings text = .ok reading)
    (hok : reading.ok = true)
    (hlimit : ∀ word, [word] ∈ groups words → Text.lower word ∉ limitWords)
    (hunit : ∀ word, [word] ∈ groups words → Text.lower word ∉ quoteUnits)
    (hperm : (groups words).Perm groups')
    (hwords' : Text.words text' = action :: groups'.flatten) :
    read settings text' = .ok reading := by
  obtain ⟨side, entries, hside, hmakes, hentered⟩ := exists_makes_of_read hwords h hok hlimit
  obtain ⟨entries', hmakes', hperm'⟩ := List.perm_comp_forall₂ hperm.symm hmakes
  refine (hentered.perm hperm'.symm).read_flatten hwords' hside hmakes' ?_
  -- any two groups are apart, so neighbours are in every order
  have hapart : ∀ group ∈ groups', ∀ next ∈ groups', Apart group next := by
    intro group hgroup next hnext raw word hraw hhead hjoins
    obtain ⟨entry, hentry, hmake⟩ := exists_mem_of_forall₂ hmakes' hgroup
    obtain ⟨entry', hentry', hmake'⟩ := exists_mem_of_forall₂ hmakes' hnext
    obtain ⟨rfl, hmem⟩ := mem_quoteUnits_of_joins (hentered.perm hperm'.symm) hmake hentry hmake'
      hentry' hraw hhead hjoins
    exact hunit word (hperm.mem_iff.2 hnext) hmem
  exact (List.pairwise_of_forall_mem_list hapart).isChain

/-- A command with groups of one, two and three words, and the same groups in another order. -/
theorem read_of_perm_buy : ∃ reading,
    read {} "/buy BTC 100 usd lev 5 stop loss 2% limit 64000" = .ok reading ∧ reading.ok = true ∧
      read {} "/buy limit 64000 stop loss 2% 100 usd BTC lev 5" = .ok reading := by
  have hwords : Text.words "/buy BTC 100 usd lev 5 stop loss 2% limit 64000" =
      ["/buy", "BTC", "100", "usd", "lev", "5", "stop", "loss", "2%", "limit", "64000"] := by
    decide +kernel
  have hgroups : groups ["BTC", "100", "usd", "lev", "5", "stop", "loss", "2%", "limit", "64000"] =
      [["BTC"], ["100", "usd"], ["lev", "5"], ["stop", "loss", "2%"], ["limit", "64000"]] := by
    decide +kernel
  obtain ⟨reading, hread, hok⟩ : ∃ reading,
      read {} "/buy BTC 100 usd lev 5 stop loss 2% limit 64000" = .ok reading ∧
        reading.ok = true :=
    exists_ok_of_any (by decide +kernel)
  have hperm : (groups ["BTC", "100", "usd", "lev", "5", "stop", "loss", "2%", "limit",
      "64000"]).Perm [["limit", "64000"], ["stop", "loss", "2%"], ["100", "usd"], ["BTC"],
        ["lev", "5"]] := by
    rw [hgroups]
    decide +kernel
  refine ⟨reading, hread, hok, read_of_perm hwords hread hok ?_ ?_ hperm (by decide +kernel)⟩
  -- the only group of one word is the symbol
  all_goals
    intro word hword
    obtain rfl : word = "BTC" := by simpa [hgroups] using hword
    decide +kernel

/-! ## Groups in another spelling -/

/-- The clause without regard to how a limit price was given. -/
def Clause.plain : Clause → Clause
  | .atPrice number => .limit (some number)
  | clause => clause

/-- Two groups that say the same: they differ in the case of letters of ASCII only, or they are two
spellings of one term with the same number. -/
def Respelled (group group' : List String) : Prop :=
  group.map String.toLower = group'.map String.toLower ∨
    ∃ clause clause' : Clause, Spells clause (group.map Text.lower) ∧
      Spells clause' (group'.map Text.lower) ∧ clause.plain = clause'.plain

/-- The word names the side: by its name, with or without a slash in front of it and an address
behind it. -/
def SpellsSide (side : Side) (word : String) : Prop :=
  ∃ front ∈ ["", "/"], ∃ back : String, (back = "" ∨ ∃ address : String, back = "@" ++ address) ∧
    word = front ++ side.name ++ back

/-- A limit price makes the same entry however it is given. -/
theorem gives_plain_iff {clause : Clause} {entry : Entry} :
    clause.plain.Gives settings entry ↔ clause.Gives settings entry := by
  cases clause with
  | atPrice number =>
    constructor
    · rintro ⟨⟩
      exact .atPrice ‹_› ‹_›
    · rintro ⟨⟩
      exact .limit ‹_› ‹_›
  | _ => rfl

/-- The words that name a side are its spellings. -/
theorem sideOf?_eq_some_iff {side : Side} {word : String} :
    sideOf? word = some side ↔ SpellsSide side (Text.lower word) := by
  have hside : sideOf? word = some side ↔ action word = side.name := by
    unfold sideOf?
    cases side <;> simp only [Side.name, beq_iff_eq] <;> grind
  rw [hside]
  constructor
  · intro h
    -- the characters behind the slash are the name and, from an at sign on, the address
    obtain ⟨front, hfront, rest, hword, hrest⟩ : ∃ front ∈ ["", "/"], ∃ rest : List Char,
        (Text.lower word).toList = front.toList ++ rest ∧
          rest.takeWhile (· != '@') = side.name.toList := by
      have hlist := congrArg String.toList h
      simp only [action, String.toList_ofList] at hlist
      split at hlist
      · rename_i rest hslash
        exact ⟨"/", by simp, rest, by simpa using hslash, hlist⟩
      · exact ⟨"", by simp, _, by simp, hlist⟩
    have hsplit := List.takeWhile_append_dropWhile (p := (· != '@')) (l := rest)
    refine ⟨front, hfront, .ofList (rest.dropWhile (· != '@')), ?_, ?_⟩
    · cases hback : rest.dropWhile (· != '@') with
      | nil => exact .inl rfl
      | cons c address =>
        have hhead := List.head?_dropWhile_not (p := (· != '@')) (l := rest)
        rw [hback] at hhead
        obtain rfl : c = '@' := by simpa using hhead
        exact .inr ⟨.ofList address, String.toList_injective (by simp)⟩
    · apply String.toList_injective
      simp [hword, ← hrest, hsplit]
  · rintro ⟨front, hfront, back, hback, hword⟩
    simp only [List.mem_cons, List.not_mem_nil, or_false] at hfront
    rcases hfront with rfl | rfl <;> rcases hback with rfl | ⟨address, rfl⟩ <;> cases side <;>
      simp [action, hword, Side.name]

/-- Groups that differ in the case of ASCII have the same lower case. -/
theorem map_lower_of_toLower {group group' : List String}
    (h : group.map String.toLower = group'.map String.toLower) :
    group.map Text.lower = group'.map Text.lower := by
  have hlower (words : List String) : words.map Text.lower =
      (words.map String.toLower).map Text.lower := by
    rw [List.map_map]
    exact List.map_congr_left fun word _ => (Text.lower_toLower word).symm
  rw [hlower, h, ← hlower]

/-- A group that says the same makes the same entry. -/
theorem Makes.respelled {group group' : List String} {entry : Entry}
    (h : Makes settings group entry) (hgroup : Respelled group group') :
    Makes settings group' entry := by
  obtain ⟨clause, hsays, hgives⟩ := h
  rcases hgroup with hsame | ⟨spelled, spelled', hspells, hspells', hplain⟩
  · refine ⟨clause, ?_, hgives⟩
    cases hsays with
    | term hspells => exact .term (map_lower_of_toLower hsame ▸ hspells)
    | @symbol raw word hread =>
      -- A symbol is read by its upper case and tested by its lower case, so both have to agree.
      obtain ⟨raw', rfl, hraw⟩ : ∃ raw', group' = [raw'] ∧ raw'.toLower = raw.toLower := by
        simpa [List.map_eq_singleton_iff, eq_comm] using hsame
      have hlower : Text.lower raw' = Text.lower raw := by
        rw [← Text.lower_toLower raw', hraw, Text.lower_toLower]
      have hupper : Text.upper raw' = Text.upper raw := by
        rw [← Text.upper_toLower raw', hraw, Text.upper_toLower]
      have hsymbol : (Clause.read raw []).1 = symbol word := congrArg Prod.fst hread
      exact .symbol (read_of_symbol hsymbol hlower hupper (protectionKeyword?_of_symbol hsymbol))
  -- The group is known to spell one clause, so the clause it made is that one.
  · obtain rfl := hsays.eq_of_spells hspells
    refine ⟨spelled', .term hspells', ?_⟩
    rw [← gives_plain_iff, ← hplain, gives_plain_iff]
    exact hgives

/-- Groups that say the same as groups that are apart are apart. -/
theorem apart_of_respelled {group group' next next' : List String} (h : Apart group next)
    (hgroup : Respelled group group') (hnext : Respelled next next') : Apart group' next' := by
  intro raw word hraw hhead hjoins
  -- the next group does not start with a keyword or a number, so it was not spelled in another way
  obtain ⟨word', hhead', hlower⟩ : ∃ word', next.head? = some word' ∧
      Text.lower word' = Text.lower word := by
    rcases hnext with hsame | ⟨-, spelled', -, hspells', -⟩
    · have hmap := map_lower_of_toLower hsame
      cases next' with
      | nil => cases hhead
      | cons first rest =>
        cases hhead
        cases next with
        | nil => cases hmap
        | cons first' rest' => exact ⟨first', rfl, (List.cons.inj hmap).1⟩
    · cases next' with
      | nil => cases hhead
      | cons first rest =>
        cases hhead
        exact absurd hjoins (Spells.not_joins_head hspells')
  -- nor was the group itself, unless it is an amount, which has one spelling
  obtain ⟨raw', hraw', hlower'⟩ : ∃ raw', group = [raw'] ∧ Text.lower raw' = Text.lower raw := by
    subst hraw
    have hmap : group.map Text.lower = [Text.lower raw] := by
      rcases hgroup with hsame | ⟨spelled, spelled', hspells, hspells', hplain⟩
      · exact map_lower_of_toLower hsame
      · obtain ⟨-, rfl⟩ := Spells.eq_size_of_joins hspells' hjoins
        obtain rfl : spelled = .size (Text.lower raw) .base := by
          cases spelled <;> simp_all [Clause.plain]
        exact hspells.eq_of_base.1
    simpa [List.map_eq_singleton_iff] using hmap
  exact h raw' word' hraw' hhead' (by rwa [hlower, hlower'])

/-- Groups that stand apart do so in another spelling. -/
theorem isChain_respelled {groups groups' : List (List String)}
    (h : List.Forall₂ Respelled groups groups') (hapart : groups.IsChain Apart) :
    groups'.IsChain Apart := by
  induction h with
  | nil => exact .nil
  | cons hgroup hrest ih =>
    cases hrest with
    | nil => exact .singleton _
    | cons hnext _ =>
      obtain ⟨hfirst, hapart⟩ := List.isChain_cons_cons.1 hapart
      exact List.isChain_cons_cons.2 ⟨apart_of_respelled hfirst hgroup hnext, ih hapart⟩

/-- An accepted command has the same reading however it is spelled, if no limit keyword lacks its
price. -/
theorem read_of_respelled {text text' action action' : String} {words : List String}
    {groups' : List (List String)} {reading : Reading}
    (hwords : Text.words text = action :: words) (h : read settings text = .ok reading)
    (hok : reading.ok = true)
    (hlimit : ∀ word, [word] ∈ groups words → Text.lower word ∉ limitWords)
    (haction : action.toLower = action'.toLower ∨ ∃ side, SpellsSide side (Text.lower action) ∧
      SpellsSide side (Text.lower action'))
    (hgroups : List.Forall₂ Respelled (groups words) groups')
    (hwords' : Text.words text' = action' :: groups'.flatten) :
    read settings text' = .ok reading := by
  obtain ⟨side, entries, hside, hmakes, hentered⟩ := exists_makes_of_read hwords h hok hlimit
  have hside' : sideOf? action' = some side := by
    rcases haction with hsame | ⟨side', hspells, hspells'⟩
    · rw [sideOf?_eq_some_iff] at hside ⊢
      rwa [← Text.lower_toLower action', ← hsame, Text.lower_toLower]
    · rw [sideOf?_eq_some_iff.2 hspells] at hside
      obtain rfl := Option.some.inj hside
      exact sideOf?_eq_some_iff.2 hspells'
  have hmakes' : List.Forall₂ (Makes settings) groups' entries := by
    refine List.Forall₂.imp ?_ (forall₂_comp_iff.2 ⟨_, hgroups.flip, hmakes⟩)
    rintro group' entry ⟨group, hgroup, hmake⟩
    exact hmake.respelled hgroup
  exact hentered.read_flatten hwords' hside' hmakes'
    (isChain_respelled hgroups (isChain_groups words))

/-- A command in two spellings that have no group in common. -/
theorem read_of_respelled_sell : ∃ reading,
    read {} "/sell@desk eth 250u sl2% limit 3100" = .ok reading ∧ reading.ok = true ∧
      read {} "SELL  ETH 250 USDT Stop Loss =2 @3100" = .ok reading := by
  have hwords : Text.words "/sell@desk eth 250u sl2% limit 3100" =
      ["/sell@desk", "eth", "250u", "sl2%", "limit", "3100"] := by decide +kernel
  have hgroups : groups ["eth", "250u", "sl2%", "limit", "3100"] =
      [["eth"], ["250u"], ["sl2%"], ["limit", "3100"]] := by decide +kernel
  obtain ⟨reading, hread, hok⟩ : ∃ reading,
      read {} "/sell@desk eth 250u sl2% limit 3100" = .ok reading ∧ reading.ok = true :=
    exists_ok_of_any (by decide +kernel)
  have hspells {clause : Clause} {words group : List String} (h : Spells clause words)
      (hlower : group.map Text.lower = words) : Spells clause (group.map Text.lower) := hlower ▸ h
  -- Each group is written in another way; only the symbol differs by case alone.
  have hsymbol : Respelled ["eth"] ["ETH"] := .inl (by simp [← String.toList_inj])
  have hsize : Respelled ["250u"] ["250", "USDT"] := by
    have hmarked : Spells (.size "250" .quote) ["250" ++ "u"] :=
      .size (by decide +kernel) (by decide +kernel)
    have hapart : Spells (.size "250" .quote) ["250", "usdt"] :=
      .sizeMark (by decide +kernel) (by decide +kernel)
    exact .inr ⟨_, _, hspells hmarked (by decide +kernel), hspells hapart (by decide +kernel), rfl⟩
  have hstop : Respelled ["sl2%"] ["Stop", "Loss", "=2"] := by
    have hvalue : IsPercentage "2%" "2" := percentage?_eq_some_iff.1 (by decide +kernel)
    have hvalue' : IsPercentage "=2" "2" := percentage?_eq_some_iff.1 (by decide +kernel)
    have hword : Spells (.protection .stopLoss "2") ["sl" ++ "2%"] :=
      .protectionWord (by decide +kernel) hvalue
    have hpair : Spells (.protection .stopLoss "2") ["stop", "loss", "=2"] :=
      .protectionPair (by decide +kernel) hvalue'
    exact .inr ⟨_, _, hspells hword (by decide +kernel), hspells hpair (by decide +kernel), rfl⟩
  have hprice : Respelled ["limit", "3100"] ["@3100"] := by
    have hlimit : Spells (.limit (some "3100")) ["limit", "3100"] :=
      .limit (by decide +kernel) (by decide +kernel)
    have hat : Spells (.atPrice "3100") ["@" ++ "3100"] := .atPrice (by decide +kernel)
    exact .inr ⟨_, _, hspells hlimit (by decide +kernel), hspells hat (by decide +kernel), rfl⟩
  have haction : ∃ side, SpellsSide side (Text.lower "/sell@desk") ∧
      SpellsSide side (Text.lower "SELL") :=
    ⟨.sell, sideOf?_eq_some_iff.1 (by decide +kernel), sideOf?_eq_some_iff.1 (by decide +kernel)⟩
  have hrespelled : List.Forall₂ Respelled (groups ["eth", "250u", "sl2%", "limit", "3100"])
      [["ETH"], ["250", "USDT"], ["Stop", "Loss", "=2"], ["@3100"]] := by
    rw [hgroups]
    exact .cons hsymbol (.cons hsize (.cons hstop (.cons hprice .nil)))
  refine ⟨reading, hread, hok, read_of_respelled hwords hread hok ?_ (.inr haction) hrespelled
    (by decide +kernel)⟩
  intro word hword
  have hone : word = "eth" ∨ word = "250u" ∨ word = "sl2%" := by simpa [hgroups] using hword
  rcases hone with rfl | rfl | rfl <;> decide +kernel

end OrderTicket.Command
