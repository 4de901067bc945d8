import RaidTimeline.Text.Word

/-!
# Vocabularies

Which words are keywords is a matter of configuration: a vocabulary has a table of keywords and
a table of log line types, and the words of both are keywords.

Main results:

- Definition {lit}`Vocabulary`: the two tables, with {lit}`Vocabulary.default`.
- Definition {lit}`Vocabulary.alternation`: the words of the tables in the order in which they are
  tried.
- Definition {lit}`keyword?`: the first of these words that stands at the start of a text.
-/

namespace RaidTimeline

/-- The tables of keywords and of log line types. -/
structure Vocabulary where
  keywords : List Text
  logTypes : List Text
deriving DecidableEq, Repr

namespace Vocabulary

/-- The keywords of the timeline language. -/
def defaultKeywords : List Text :=
  ["sync", "window", "jump", "duration", "hideall", "alertall", "before", "sound", "define",
    "infotext", "alerttext", "alarmtext"].map String.toList

/-- The network log line types of the overlay. -/
def defaultLogTypes : List Text :=
  ["GameLog", "ChangeZone", "ChangedPlayer", "AddedCombatant", "RemovedCombatant", "PartyList",
    "PlayerStats", "StartsUsing", "Ability", "NetworkAOEAbility", "NetworkCancelAbility",
    "NetworkDoT", "WasDefeated", "GainsEffect", "HeadMarker", "NetworkRaidMarker",
    "NetworkTargetMarker", "LosesEffect", "NetworkGauge", "NetworkWorld", "ActorControl",
    "NameToggle", "Tether", "LimitBreak", "NetworkEffectResult", "StatusEffect",
    "NetworkUpdateHP", "Map", "SystemLogMessage", "StatusList3", "ParserInfo", "ProcessInfo",
    "Debug", "PacketDump", "Version", "Error", "None", "LineRegistration", "MapEffect",
    "FateDirector", "CEDirector", "InCombat", "CombatantMemory", "RSVData",
    "StartsUsingExtra", "AbilityExtra", "ContentFinderSettings"].map String.toList

/-- The tables of a lexer that is not configured. -/
protected def default : Vocabulary := ⟨defaultKeywords, defaultLogTypes⟩

/-- The words of both tables. -/
def words (v : Vocabulary) : List Text := v.keywords ++ v.logTypes

end Vocabulary

/-- Puts a word in front of the first word that is not longer. -/
def insertByLength (word : Text) : List Text → List Text
  | [] => [word]
  | other :: rest =>
      if other.length ≤ word.length then word :: other :: rest
      else other :: insertByLength word rest

/-- The words of both tables in the order in which they are tried: each once, and longer ones
first, so that no word hides another one that begins with it. -/
def Vocabulary.alternation (v : Vocabulary) : List Text :=
  v.words.eraseDups.foldr insertByLength []

/-- The last character of a word, or the one before it if the word is empty. -/
def lastOr (before : Option Char) (word : Text) : Option Char := word.getLast?.or before

/-- Whether a word stands at the start of a text and ends there at a word boundary;
{lit}`before` is the character in front of the text. -/
def standsAt (before : Option Char) (text word : Text) : Bool :=
  word.isPrefixOf text && isBoundary (lastOr before word) (text.drop word.length).head?

/-- The keyword at the start of a text: the first word, of those to be tried, that stands there.
A word that begins the text but does not end at a boundary gives way to the next one. -/
def keyword? (v : Vocabulary) (before : Option Char) (text : Text) : Option Text :=
  v.alternation.find? (standsAt before text)

/-- The length of the keyword at the start of a text. -/
def keywordLength? (v : Vocabulary) (before : Option Char) (text : Text) : Option Nat :=
  (keyword? v before text).map List.length

end RaidTimeline
