import QuestDbWriter.Lib.Glob
import QuestDbWriter.Options.Resave
import QuestDbWriter.Options.Startable
import QuestDbWriter.Runtime

/-!
# The attribute filter

`attribute_filter.py`, and `_attribute_filter` of `__init__.py`, which makes a filter of the stored
patterns. `fnmatchcase` is translated as Python's `fnmatch` module does it: stars, `?`, and classes
in brackets with ranges, of which those that are the wrong way round are dropped.

`attributes_written` says which attributes of a state reach its payload, for the patterns that any
options flow can store.
-/

namespace QuestDbWriter

open Lib

/-! ## fnmatchcase -/

/-- The ranges of a class, cut at the hyphens that make one: `chunk` is what has been read behind
the last of them, and a hyphen makes one behind `least` characters. -/
def cutRanges : (least : Nat) → (chunk : PyStr) → PyStr → List PyStr
  | _, chunk, [] => [chunk]
  | least, chunk, c :: stuff =>
    if c = ofChar '-' ∧ least ≤ chunk.length then chunk :: cutRanges 2 [] stuff
    else cutRanges least (chunk ++ [c]) stuff

/-- A hyphen at the end is a character. -/
def closeRanges : List PyStr → List PyStr
  | [] => []
  | [chunk] => [chunk]
  | [chunk, []] => [chunk ++ [ofChar '-']]
  | chunk :: chunks => chunk :: closeRanges chunks

/-- A range that is the wrong way round goes, with its ends. -/
def dropEmptyRanges : List PyStr → List PyStr
  | [] => []
  | chunk :: chunks =>
    match dropEmptyRanges chunks with
    | [] => [chunk]
    | next :: rest =>
      if chunk.getLast?.any fun last => next.head?.any fun first => decide (first < last) then
        (chunk.dropLast ++ next.tail) :: rest
      else chunk :: next :: rest

/-- The chunks of what stands between two brackets. -/
def classChunks (stuff : PyStr) : List PyStr :=
  if ofChar '-' ∈ stuff then
    dropEmptyRanges (closeRanges
      (cutRanges (if stuff.head? = some (ofChar '!') then 2 else 1) [] stuff))
  else [stuff]

/-- A character of one of the chunks, or between two of them. -/
def inChunks (chunks : List PyStr) (c : CodePoint) : Bool :=
  chunks.any (c ∈ ·) || (chunks.zip chunks.tail).any fun pair =>
    pair.1.getLast?.any (· ≤ c) && pair.2.head?.any (c ≤ ·)

/-- What stands between two brackets. -/
def classItem (stuff : PyStr) : Glob.Item CodePoint :=
  match classChunks stuff with
  | [[]] => .one fun _ => false
  | (bang :: chunk) :: chunks =>
    if bang = ofChar '!' then
      if chunk ≠ [] then .one fun c => !inChunks (chunk :: chunks) c
      else if chunks = [] then .one fun _ => true
      -- with nothing in front of it, the hyphen of a range is a character
      else .one fun c => !(decide (c = ofChar '-') || inChunks chunks c)
    else .one (inChunks ((bang :: chunk) :: chunks))
  | chunks => .one (inChunks chunks)

/-- What stands between an opening bracket and its closing one, where it has one: a closing bracket
at the beginning is a character. -/
def classStuff (rest : PyStr) : Option PyStr :=
  let bang := rest.take (if rest.head? = some (ofChar '!') then 1 else 0)
  let body := rest.drop bang.length
  let bracket := body.take (if body.head? = some (ofChar ']') then 1 else 0)
  let body := body.drop bracket.length
  if ofChar ']' ∈ body then some (bang ++ bracket ++ body.takeWhile (· ≠ ofChar ']')) else none

/-- `translate`, behind `skip` characters that have been read, and behind a star or not. -/
def translateFrom : (skip : Nat) → (starred : Bool) → PyStr → List (Glob.Item CodePoint)
  | _, _, [] => []
  | skip + 1, starred, _ :: pat => translateFrom skip starred pat
  | 0, starred, c :: pat =>
    if c = ofChar '*' then
      if starred then translateFrom 0 true pat else .star :: translateFrom 0 true pat
    else if c = ofChar '?' then .one (fun _ => true) :: translateFrom 0 false pat
    else if c = ofChar '[' then
      match classStuff pat with
      | none => .one (decide <| · = c) :: translateFrom 0 false pat
      | some stuff => classItem stuff :: translateFrom (stuff.length + 1) false pat
    else .one (decide <| · = c) :: translateFrom 0 false pat

/-- `translate`. -/
def translate (pat : PyStr) : List (Glob.Item CodePoint) := translateFrom 0 false pat

/-- `fnmatchcase`. -/
def fnmatchcase (name pat : PyStr) : Bool := Glob.glob (translate pat) name

/-! ## AttributeFilter -/

/-- `AttributeFilter`. -/
structure AttributeFilter where
  allow : List PyStr
  deny : List PyStr

/-- `AttributeFilter.__call__`. -/
def AttributeFilter.call (f : AttributeFilter) (name : PyStr) : Bool :=
  if f.deny ≠ [] ∧ f.deny.any (fnmatchcase name) then false
  else if f.allow = [] then true
  else f.allow.any (fnmatchcase name)

/-- `_attribute_filter`. -/
def attributeFilter (options : EntryOptions) : Option AttributeFilter :=
  let allow := options.attributeAllowlist.getD []
  let deny := options.attributeDenylist.getD []
  if allow = [] ∧ deny = [] then none else some { allow, deny }

/-! ## What a pattern names -/

/-- A pattern without stars, question marks and brackets. -/
def IsPlain (pat : PyStr) : Prop := ofChar '*' ∉ pat ∧ ofChar '?' ∉ pat ∧ ofChar '[' ∉ pat

theorem translateFrom_plain {pat : PyStr} (h : IsPlain pat) (starred : Bool) :
    translateFrom 0 starred pat = pat.map fun c => .one fun d => decide (d = c) := by
  induction pat generalizing starred with
  | nil => rfl
  | cons c pat ih =>
    obtain ⟨hstar, hquestion, hbracket⟩ := h
    rw [List.mem_cons, not_or] at hstar hquestion hbracket
    rw [translateFrom, if_neg (Ne.symm hstar.1), if_neg (Ne.symm hquestion.1),
      if_neg (Ne.symm hbracket.1), ih ⟨hstar.2, hquestion.2, hbracket.2⟩, List.map_cons]

/-- **A plain pattern names the one attribute that is spelt like it.** -/
theorem matches_plain {pat name : PyStr} (h : IsPlain pat) :
    Glob.Matches (translate pat) name ↔ name = pat := by
  rw [translate, translateFrom_plain h]
  exact Glob.matches_literal

theorem fnmatchcase_iff {name pat : PyStr} :
    fnmatchcase name pat = true ↔ Glob.Matches (translate pat) name := Glob.glob_iff

/-- The name passes the allow list. -/
def Allowed (allow : List PyStr) (name : PyStr) : Prop :=
  allow = [] ∨ ∃ pat ∈ allow, Glob.Matches (translate pat) name

/-- The name is on the deny list. -/
def Denied (deny : List PyStr) (name : PyStr) : Prop :=
  ∃ pat ∈ deny, Glob.Matches (translate pat) name

/-- **A filter passes what is allowed and not denied.** -/
theorem AttributeFilter.call_iff {f : AttributeFilter} {name : PyStr} :
    f.call name = true ↔ Allowed f.allow name ∧ ¬ Denied f.deny name := by
  have hany : ∀ pats : List PyStr, pats.any (fnmatchcase name) = true ↔
      ∃ pat ∈ pats, Glob.Matches (translate pat) name := by
    intro pats
    simp only [List.any_eq_true, fnmatchcase_iff]
  unfold AttributeFilter.call Allowed
  split
  · next hdenied =>
    have hdeny : Denied f.deny name := (hany f.deny).mp hdenied.2
    simp [hdeny]
  · next hdenied =>
    have hdeny : ¬ Denied f.deny name := by
      rintro ⟨pat, hpat, hmatch⟩
      exact hdenied ⟨List.ne_nil_of_mem hpat, (hany f.deny).mpr ⟨pat, hpat, hmatch⟩⟩
    split
    · next hallow => simp [hallow, hdeny]
    · next hallow => simp [hany f.allow, hallow, hdeny]

/-! ## What reaches a payload -/

section
variable {α : Type} {l : Listener α} {options : EntryOptions}

/-- The attributes that are kept, in their order. -/
theorem keep_iff (hl : l.attributeFilter = (attributeFilter options).map AttributeFilter.call)
    (attributes : List (PyStr × α)) : (l.keep attributes).Sublist attributes ∧
      ∀ a, a ∈ l.keep attributes ↔ a ∈ attributes ∧
        Allowed (options.attributeAllowlist.getD []) a.1 ∧
        ¬ Denied (options.attributeDenylist.getD []) a.1 := by
  unfold Listener.keep
  rw [hl]
  unfold attributeFilter
  dsimp only
  split
  · next hnone =>
    refine ⟨List.Sublist.refl _, fun a => ?_⟩
    simp [Allowed, Denied, hnone.1, hnone.2]
  · refine ⟨List.filter_sublist, fun a => ?_⟩
    show a ∈ List.filter _ attributes ↔ _
    rw [List.mem_filter, AttributeFilter.call_iff]

/-- Texts that are joined to nothing are empty. -/
theorem eq_nil_of_intercalate {sep : PyStr} {parts : List PyStr}
    (h : sep.intercalate parts = []) : ∀ p ∈ parts, p = [] := by
  induction parts with
  | nil => simp
  | cons first parts ih =>
    cases parts with
    | nil => simpa using h
    | cons next parts =>
      rw [List.intercalate_cons_cons, List.append_eq_nil_iff, List.append_eq_nil_iff] at h
      obtain ⟨⟨hfirst, -⟩, hrest⟩ := h
      exact List.forall_mem_cons.mpr ⟨hfirst, ih hrest⟩

/-- Where the first step finds no overlap, no pattern is on both lists. -/
theorem disjoint_of_overlappingPairs {f : FilterOptions} (h : f.overlappingPairs = []) :
    ∀ pat ∈ f.attributeAllowlist, pat ∉ f.attributeDenylist := by
  intro pat hallow hdeny
  have hmem : pat ∈ overlap f.attributeAllowlist f.attributeDenylist := by
    unfold overlap sortNames
    rw [(List.perm_insertionSort _ _).mem_iff]
    simp [hallow, hdeny]
  have hparts := eq_nil_of_intercalate h
    (py "attributes" ++ py ": " ++ joinComma (overlap f.attributeAllowlist f.attributeDenylist))
    (List.reduceOption_mem_iff.mpr (by simp [List.ne_nil_of_mem hmem]))
  have hlabel : py "attributes" ≠ [] := by decide
  simp [hlabel] at hparts

end

/-- **What reaches a payload.** Whatever options flow has stored the options: the patterns on the
two lists are trimmed and not empty, and none is on both; and the attributes in the envelope of a
state are those of the state, in their order, that are allowed and not denied, so that an attribute
that is denied by its own name is in no payload. -/
theorem attributes_written {α : Type} (validFilter : FilterSide → FilterSide → Bool)
    (conv : Conversions) (options entry : EntryOptions)
    (hstores : FlowStores validFilter conv options entry) (l : Listener α)
    (hl : l.attributeFilter = (attributeFilter entry).map AttributeFilter.call)
    (d : Delivery α) (s : StateObject α) (envelope : EventEnvelope)
    (h : l.convert d s = .ok envelope) :
    let allow := entry.attributeAllowlist.getD []
    let deny := entry.attributeDenylist.getD []
    (∀ pat ∈ allow ++ deny, pat ≠ [] ∧ strip pat = pat) ∧ (∀ pat ∈ allow, pat ∉ deny) ∧
      ∃ kept, l.jsonDumps kept = .ok envelope.fields.attributesJson ∧ kept.Sublist s.attributes ∧
        (∀ a, a ∈ kept ↔ a ∈ s.attributes ∧ Allowed allow a.1 ∧ ¬ Denied deny a.1) ∧
        ∀ a ∈ kept, IsPlain a.1 → a.1 ∉ deny := by
  intro allow deny
  obtain ⟨input, -, hoverlaps, -, hentry⟩ := hstores.accepted
  have hallow : allow = splitCsv input.attributeAllowlist := by
    show entry.attributeAllowlist.getD [] = _
    rw [← hentry]
    rfl
  have hdeny : deny = splitCsv input.attributeDenylist := by
    show entry.attributeDenylist.getD [] = _
    rw [← hentry]
    rfl
  obtain ⟨hsublist, hkeep⟩ := keep_iff hl s.attributes
  obtain ⟨-, -, -, -, hjson⟩ := Listener.convert_ok h
  refine ⟨fun pat hpat => ?_, ?_, l.keep s.attributes, hjson, hsublist, hkeep, ?_⟩
  · rw [hallow, hdeny, List.mem_append] at hpat
    rcases hpat with hpat | hpat
    · obtain ⟨hne, -, hstrip⟩ := splitCsv_parts _ pat hpat
      exact ⟨hne, hstrip⟩
    · obtain ⟨hne, -, hstrip⟩ := splitCsv_parts _ pat hpat
      exact ⟨hne, hstrip⟩
  · rw [hallow, hdeny]
    exact disjoint_of_overlappingPairs hoverlaps
  · intro a ha hplain hdenied
    exact ((hkeep a).mp ha).2.2 ⟨a.1, hdenied, (matches_plain hplain).mpr rfl⟩

/-- Attributes in batteries and one of its own name are denied; of the others, two kinds are
allowed. -/
def lightPatterns : InitInput where
  attributeAllowlist := py "b*, color_[a-m]*,"
  attributeDenylist := py " battery_?,brand"

/-- A listener for attributes that are given as they are written. -/
def lightListener : Listener PyStr where
  interpreter := .plain
  entityFilter := none
  attributeFilter := (attributeFilter (noOptions.withFilter
    (some lightPatterns.filterOptions))).map AttributeFilter.call
  jsonDumps attributes := .ok (py "\x7b" ++
    joinComma (attributes.map fun a => py "\"" ++ a.1 ++ py "\": " ++ a.2) ++ py "\x7d")

/-- A light with six attributes. -/
def litLight : StateObject PyStr where
  entityId := py "light.hall"
  state := py "on"
  attributes := [(py "battery_1", py "90"), (py "brightness", py "255"), (py "brand", py "null"),
    (py "color_mode", py "\"hs\""), (py "color_temp", py "370"), (py "effect", py "null")]
  lastChanged := ⟨2, some 0⟩
  lastUpdated := ⟨2, some 0⟩
  contextId := py "c"

/-- What is written of it. -/
def brightAndHs : PyStr := py "\x7b\"brightness\": 255, \"color_mode\": \"hs\"\x7d"

/-- Brightness and color mode are written. -/
theorem attributes_written_light :
    ∃ kept, lightListener.jsonDumps kept = .ok brightAndHs ∧
      kept.Sublist litLight.attributes := by
  have hflow : FlowStores (fun _ _ => true) zeroConversions noOptions
      (noOptions.withFilter (some lightPatterns.filterOptions)) :=
    .of_filter ⟨[], [], rfl, rfl⟩ (by decide +kernel) rfl rfl
  have hconvert : (lightListener.convert ⟨none, py "1", 3000⟩ litLight).toOption.map
      (·.fields.attributesJson) = some brightAndHs := by
    decide +kernel
  cases h : lightListener.convert ⟨none, py "1", 3000⟩ litLight with
  | error e =>
    rw [h] at hconvert
    cases hconvert
  | ok envelope =>
    rw [h] at hconvert
    obtain ⟨-, -, kept, hkept, hsublist, -⟩ :=
      attributes_written _ _ _ _ hflow lightListener rfl _ litLight envelope h
    exact ⟨kept, Option.some.inj hconvert ▸ hkept, hsublist⟩

end QuestDbWriter
