/-
The canonical rendering of JSON values and the parser that reads it back.  Members
are sorted by name at every depth, so a text stands for a value up to the order of
its members.
-/
import HermesPipeline.Lib.JsonText
import HermesPipeline.Lib.PyText
import Mathlib.Data.List.Lex
import Mathlib.Data.List.Sort

namespace HermesPipeline

open Lib

namespace RenderJson

/-- A JSON value; the numbers are a parameter. -/
inductive Value (N : Type)
  | null
  | bool (value : Bool)
  | number (n : N)
  | text (text : PyText)
  | list (items : List (Value N))
  | dict (members : List (PyText × Value N))

/-- A text of scalar values. -/
abbrev say (letters : List Char) : PyText := .ofLetters letters

/-- The characters that may follow a number. -/
def follows : List Char := [',', '\n']

def numberStarts : List Char :=
  ['-', '0', '1', '2', '3', '4', '5', '6', '7', '8', '9']

/-- `json.dumps` and the scanners of `json.loads` for texts and numbers; each reads
back what the other wrote. -/
structure ScalarCodec (N : Type) where
  dumpsText : PyText → PyText
  dumpsNumber : N → PyText
  scanText : PyText → Option (PyText × PyText)
  scanNumber : PyText → Option (N × PyText)
  text_starts : ∀ text, ∃ more, dumpsText text = .scalar '"' :: more
  number_starts : ∀ n, ∃ c more, dumpsNumber n = .scalar c :: more ∧ c ∈ numberStarts
  scanText_dumps : ∀ text rest, scanText (dumpsText text ++ rest) = some (text, rest)
  scanNumber_dumps : ∀ n rest, (∀ c ∈ rest.head?, ∃ letter ∈ follows, c = .scalar letter) →
    scanNumber (dumpsNumber n ++ rest) = some (n, rest)

variable {N : Type}

section Source

variable (codec : ScalarCodec N)

/-- `"  " * level`. -/
def pad (level : Nat) : PyText := List.replicate (2 * level) (.scalar ' ')

/-- The order of the names, by code points. -/
def Before {V : Type} (left right : PyText × V) : Prop :=
  left.1.map PyChar.ord ≤ right.1.map PyChar.ord

instance {V : Type} : DecidableRel (Before (V := V)) := fun left right =>
  inferInstanceAs (Decidable (left.1.map PyChar.ord ≤ right.1.map PyChar.ord))

/-- `sorted(items, key=lambda pair: pair[0])`. -/
def sortedByKey {V : Type} (items : List (PyText × V)) : List (PyText × V) :=
  items.insertionSort Before

/-- Lines between brackets, which stand on lines of their own. -/
def framed (opening closing : Char) (level : Nat) (lines : List PyText) : PyText :=
  say [opening, '\n'] ++ (say [',', '\n']).intercalate lines ++ .scalar '\n' :: pad level ++
    say [closing]

mutual

/-- `_render`. -/
def renderAt (level : Nat) : Value N → PyText
  | .null => say ['n', 'u', 'l', 'l']
  | .bool true => say ['t', 'r', 'u', 'e']
  | .bool false => say ['f', 'a', 'l', 's', 'e']
  | .number n => codec.dumpsNumber n
  | .text text => codec.dumpsText text
  | .list [] => say ['[', ']']
  | .list (item :: rest) => framed '[' ']' level (renderItems (level + 1) (item :: rest))
  | .dict [] => say ['\x7b', '\x7d']
  | .dict (member :: rest) =>
      framed '\x7b' '\x7d' level
        ((sortedByKey (renderMembers (level + 1) (member :: rest))).map Prod.snd)

/-- The lines of the items. -/
def renderItems (level : Nat) : List (Value N) → List PyText
  | [] => []
  | item :: rest => (pad level ++ renderAt level item) :: renderItems level rest

/-- The lines of the members, with their keys. -/
def renderMembers (level : Nat) : List (PyText × Value N) → List (PyText × PyText)
  | [] => []
  | (key, item) :: rest =>
      (key, pad level ++ codec.dumpsText key ++ say [':', ' '] ++ renderAt level item) ::
        renderMembers level rest

end

/-- `render_json`. -/
def renderJson (value : Value N) : PyText := renderAt codec 0 value ++ say ['\n']

end Source

section Parser

variable (codec : ScalarCodec N)

def isJsonSpace (c : PyChar) : Bool := c ∈ say [' ', '\t', '\n', '\r']

def skip (text : PyText) : PyText := text.dropWhile isJsonSpace

/-- Assign a member; the last one of a name counts. -/
def assign (members : List (PyText × Value N)) (member : PyText × Value N) :
    List (PyText × Value N) :=
  if member.1 ∈ members.map Prod.fst then
    members.map fun other => if other.1 = member.1 then member else other
  else members ++ [member]

def dictOf (members : List (PyText × Value N)) : Value N := .dict (members.foldl assign [])

mutual

/-- `scan_once`. -/
def parseValue : Nat → PyText → Option (Value N × PyText)
  | 0, _ => none
  | fuel + 1, .scalar c :: rest =>
      if c = '"' then
        (codec.scanText (.scalar c :: rest)).map fun scanned => (.text scanned.1, scanned.2)
      else if c = '[' then
        match skip rest with
        | .scalar ']' :: rest => some (.list [], rest)
        | text => (parseItems fuel text).map fun parsed => (.list parsed.1, parsed.2)
      else if c = '\x7b' then
        match skip rest with
        | .scalar '\x7d' :: rest => some (.dict [], rest)
        | text => (parseMembers fuel text).map fun parsed => (dictOf parsed.1, parsed.2)
      else if say ['n', 'u', 'l', 'l'] <+: .scalar c :: rest then some (.null, rest.drop 3)
      else if say ['t', 'r', 'u', 'e'] <+: .scalar c :: rest then
        some (.bool true, rest.drop 3)
      else if say ['f', 'a', 'l', 's', 'e'] <+: .scalar c :: rest then
        some (.bool false, rest.drop 4)
      else (codec.scanNumber (.scalar c :: rest)).map fun scanned =>
        (.number scanned.1, scanned.2)
  | _ + 1, _ => none

/-- The items up to the closing bracket; at least one. -/
def parseItems : Nat → PyText → Option (List (Value N) × PyText)
  | 0, _ => none
  | fuel + 1, text =>
      match parseValue fuel text with
      | none => none
      | some (item, rest) =>
          match skip rest with
          | .scalar ']' :: rest => some ([item], rest)
          | .scalar ',' :: rest =>
              (parseItems fuel (skip rest)).map fun parsed => (item :: parsed.1, parsed.2)
          | _ => none

/-- The members up to the closing brace; at least one. -/
def parseMembers : Nat → PyText → Option (List (PyText × Value N) × PyText)
  | 0, _ => none
  | fuel + 1, text =>
      match text with
      | .scalar '"' :: _ =>
          match codec.scanText text with
          | none => none
          | some (key, rest) =>
              match skip rest with
              | .scalar ':' :: rest =>
                  match parseValue fuel (skip rest) with
                  | none => none
                  | some (item, rest) =>
                      match skip rest with
                      | .scalar '\x7d' :: rest => some ([(key, item)], rest)
                      | .scalar ',' :: rest =>
                          (parseMembers fuel (skip rest)).map fun parsed =>
                            ((key, item) :: parsed.1, parsed.2)
                      | _ => none
              | _ => none
      | _ => none

end

/-- `json.loads`. -/
def loads (text : PyText) : Option (Value N) :=
  match parseValue codec (text.length + 1) (skip text) with
  | none => none
  | some (value, rest) => if skip rest = [] then some value else none

end Parser

section Values

mutual

/-- The names of every object differ. -/
def UniqueNames : Value N → Prop
  | .list items => UniqueItems items
  | .dict members => (members.map Prod.fst).Nodup ∧ UniqueMembers members
  | _ => True

def UniqueItems : List (Value N) → Prop
  | [] => True
  | item :: rest => UniqueNames item ∧ UniqueItems rest

def UniqueMembers : List (PyText × Value N) → Prop
  | [] => True
  | (_, item) :: rest => UniqueNames item ∧ UniqueMembers rest

end

theorem uniqueItems_iff (items : List (Value N)) :
    UniqueItems items ↔ ∀ item ∈ items, UniqueNames item := by
  induction items with
  | nil => simp [UniqueItems]
  | cons item rest ih => simp [UniqueItems, ih]

theorem uniqueMembers_iff (members : List (PyText × Value N)) :
    UniqueMembers members ↔ ∀ member ∈ members, UniqueNames member.2 := by
  induction members with
  | nil => simp [UniqueMembers]
  | cons member rest ih => simp [UniqueMembers, ih]

theorem uniqueNames_dict (members : List (PyText × Value N)) :
    UniqueNames (.dict members) ↔
      (members.map Prod.fst).Nodup ∧ ∀ member ∈ members, UniqueNames member.2 := by
  rw [UniqueNames, uniqueMembers_iff]

theorem uniqueNames_list (items : List (Value N)) :
    UniqueNames (.list items) ↔ ∀ item ∈ items, UniqueNames item := by
  rw [UniqueNames, uniqueItems_iff]

/-- Induction on values: over the items of a list and the members of an object. -/
theorem Value.induct {P : Value N → Prop} (null : P .null) (bool : ∀ b, P (.bool b))
    (number : ∀ n, P (.number n)) (text : ∀ text, P (.text text))
    (list : ∀ items, (∀ item ∈ items, P item) → P (.list items))
    (dict : ∀ members : List (PyText × Value N), (∀ member ∈ members, P member.2) →
      P (.dict members)) (value : Value N) : P value :=
  @Value.rec N P (fun items => ∀ item ∈ items, P item)
    (fun members => ∀ member ∈ members, P member.2) (fun member => P member.2)
    null bool number text list dict
    (fun _ hitem => absurd hitem List.not_mem_nil)
    (fun _ _ hhead htail _ hitem => (List.mem_cons.mp hitem).elim (· ▸ hhead) (htail _))
    (fun _ hmember => absurd hmember List.not_mem_nil)
    (fun _ _ hhead htail _ hmember => (List.mem_cons.mp hmember).elim (· ▸ hhead) (htail _))
    (fun _ _ hitem => hitem) value

end Values

section Sorting

variable {V W : Type}

instance : Std.Total (Before (V := V)) :=
  ⟨fun left right => le_total (left.1.map PyChar.ord) (right.1.map PyChar.ord)⟩

instance : IsTrans (PyText × V) Before :=
  ⟨fun _ middle _ hleft hright =>
    le_trans (b := middle.1.map PyChar.ord) hleft hright⟩

theorem sortedByKey_perm (items : List (PyText × V)) : (sortedByKey items).Perm items :=
  List.perm_insertionSort Before items

/-- Names that stand before each other are equal. -/
theorem Before.antisymm {left right : PyText × V} (hleft : Before left right)
    (hright : Before right left) : left.1 = right.1 :=
  List.map_injective_iff.mpr PyChar.ord_injective (le_antisymm hleft hright)

theorem eq_of_name_eq {items : List (PyText × V)} (hnodup : (items.map Prod.fst).Nodup)
    {left right : PyText × V} (hleft : left ∈ items) (hright : right ∈ items)
    (hname : left.1 = right.1) : left = right :=
  List.inj_on_of_nodup_map hnodup hleft hright hname

/-- With names that differ, sorting forgets the order. -/
theorem sortedByKey_congr {items items' : List (PyText × V)} (hperm : items.Perm items')
    (hnodup : (items.map Prod.fst).Nodup) : sortedByKey items = sortedByKey items' := by
  have hboth := ((sortedByKey_perm items).trans hperm).trans (sortedByKey_perm items').symm
  refine List.Perm.eq_of_pairwise ?_ (List.pairwise_insertionSort Before items)
    (List.pairwise_insertionSort Before items') hboth
  intro left right hleft hright hbefore hafter
  have hleft : left ∈ items := (sortedByKey_perm items).mem_iff.mp hleft
  have hright : right ∈ items :=
    (hperm.trans (sortedByKey_perm items').symm).mem_iff.mpr hright
  exact eq_of_name_eq hnodup hleft hright (hbefore.antisymm hafter)

theorem sortedByKey_map (f : PyText × V → PyText × W) (hname : ∀ item, (f item).1 = item.1)
    (items : List (PyText × V)) : sortedByKey (items.map f) = (sortedByKey items).map f := by
  refine (List.map_insertionSort Before Before f items fun left _ right _ => ?_).symm
  rw [Before, Before, hname left, hname right]

end Sorting

section Canonical

mutual

/-- The value with its members sorted by name at every depth. -/
def canon : Value N → Value N
  | .null => .null
  | .bool value => .bool value
  | .number n => .number n
  | .text text => .text text
  | .list items => .list (canonItems items)
  | .dict members => .dict (sortedByKey (canonMembers members))

def canonItems : List (Value N) → List (Value N)
  | [] => []
  | item :: rest => canon item :: canonItems rest

def canonMembers : List (PyText × Value N) → List (PyText × Value N)
  | [] => []
  | (name, item) :: rest => (name, canon item) :: canonMembers rest

end

/-- A member with its value in canonical form. -/
def canonMember (member : PyText × Value N) : PyText × Value N := (member.1, canon member.2)

theorem canonItems_eq (items : List (Value N)) : canonItems items = items.map canon := by
  induction items with
  | nil => rfl
  | cons item rest ih => rw [canonItems, ih, List.map_cons]

theorem canonMembers_eq (members : List (PyText × Value N)) :
    canonMembers members = members.map canonMember := by
  induction members with
  | nil => rfl
  | cons member rest ih => rw [canonMembers, ih, List.map_cons, canonMember]

theorem canon_list (items : List (Value N)) : canon (.list items) = .list (items.map canon) := by
  rw [canon, canonItems_eq]

theorem canon_dict (members : List (PyText × Value N)) :
    canon (.dict members) = .dict ((sortedByKey members).map canonMember) := by
  rw [canon, canonMembers_eq, sortedByKey_map canonMember fun _ => rfl]

/-- Two values differ only in the order of members, at any depth. -/
inductive Reordered : Value N → Value N → Prop
  | refl (value) : Reordered value value
  | symm {left right} : Reordered left right → Reordered right left
  | trans {left middle right} :
      Reordered left middle → Reordered middle right → Reordered left right
  | members {members members'} : members.Perm members' →
      Reordered (.dict members) (.dict members')
  | item (front back) {item item'} : Reordered item item' →
      Reordered (.list (front ++ item :: back)) (.list (front ++ item' :: back))
  | member (front back name) {item item'} : Reordered item item' →
      Reordered (.dict (front ++ (name, item) :: back)) (.dict (front ++ (name, item') :: back))

/-- Reordering keeps the names unique and does not change the canonical form. -/
theorem Reordered.keeps {left right : Value N} (hreordered : Reordered left right) :
    (UniqueNames left ↔ UniqueNames right) ∧
      (UniqueNames left → canon left = canon right) := by
  induction hreordered with
  | refl value => exact ⟨Iff.rfl, fun _ => rfl⟩
  | symm _ ih => exact ⟨ih.1.symm, fun hunique => (ih.2 (ih.1.mpr hunique)).symm⟩
  | trans _ _ ihleft ihright =>
      refine ⟨ihleft.1.trans ihright.1, fun hunique => ?_⟩
      exact (ihleft.2 hunique).trans (ihright.2 (ihleft.1.mp hunique))
  | members hperm =>
      rw [uniqueNames_dict, uniqueNames_dict, (hperm.map Prod.fst).nodup_iff]
      refine ⟨and_congr_right fun _ => forall_congr' fun member => ?_, fun hunique => ?_⟩
      · rw [hperm.mem_iff]
      · rw [canon_dict, canon_dict,
          sortedByKey_congr hperm ((hperm.map Prod.fst).nodup_iff.mpr hunique.1)]
  | item front back _ ih =>
      rw [uniqueNames_list, uniqueNames_list]
      simp only [List.forall_mem_append, List.forall_mem_cons, ih.1, true_and]
      intro hunique
      rw [canon_list, canon_list, List.map_append, List.map_append, List.map_cons,
        List.map_cons, ih.2 (ih.1.mpr hunique.2.1)]
  | member front back name _ ih =>
      rw [uniqueNames_dict, uniqueNames_dict]
      simp only [List.map_append, List.map_cons, List.forall_mem_append, List.forall_mem_cons,
        ih.1, true_and]
      intro hunique
      rw [canon, canon, canonMembers_eq, canonMembers_eq, List.map_append, List.map_append,
        List.map_cons, List.map_cons, canonMember, canonMember, ih.2 (ih.1.mpr hunique.2.2.1)]

theorem reordered_items (front : List (Value N)) {items items' : List (Value N)}
    (hitems : List.Forall₂ Reordered items items') :
    Reordered (.list (front ++ items)) (.list (front ++ items')) := by
  induction hitems generalizing front with
  | nil => exact .refl _
  | @cons item item' rest rest' hitem _ ih =>
      refine .trans (.item front rest hitem) ?_
      simpa using ih (front ++ [item'])

theorem reordered_members (front : List (PyText × Value N))
    {members members' : List (PyText × Value N)}
    (hmembers : List.Forall₂ (fun member member' => member.1 = member'.1 ∧
      Reordered member.2 member'.2) members members') :
    Reordered (.dict (front ++ members)) (.dict (front ++ members')) := by
  induction hmembers generalizing front with
  | nil => exact .refl _
  | @cons member member' rest rest' hmember _ ih =>
      obtain ⟨name, item⟩ := member
      obtain ⟨name', item'⟩ := member'
      obtain ⟨rfl, hitem⟩ := hmember
      refine .trans (.member front _ name hitem) ?_
      simpa using ih (front ++ [(name, item')])

/-- The canonical form is a reordering. -/
theorem reordered_canon (value : Value N) : Reordered value (canon value) := by
  induction value using Value.induct with
  | null => exact .refl _
  | bool b => exact .refl _
  | number n => exact .refl _
  | text text => exact .refl _
  | list items ih =>
      rw [canon_list]
      refine reordered_items [] ?_
      rw [List.forall₂_map_right_iff, List.forall₂_same]
      exact ih
  | dict members ih =>
      rw [canon_dict]
      have hsorted : Reordered (.dict members) (.dict (sortedByKey members)) :=
        .members (sortedByKey_perm members).symm
      have hvalues : List.Forall₂ (fun member member' => member.1 = member'.1 ∧
          Reordered member.2 member'.2) (sortedByKey members)
          ((sortedByKey members).map canonMember) := by
        rw [List.forall₂_map_right_iff, List.forall₂_same]
        exact fun member hmember =>
          ⟨rfl, ih member ((sortedByKey_perm members).mem_iff.mp hmember)⟩
      exact hsorted.trans (reordered_members [] hvalues)

/-- Values with unique names are reorderings of each other when their canonical forms
agree. -/
theorem reordered_iff_canon {left right : Value N} (hleft : UniqueNames left) :
    Reordered left right ↔ canon left = canon right := by
  refine ⟨fun hreordered => hreordered.keeps.2 hleft, fun heq => ?_⟩
  refine (reordered_canon left).trans ?_
  rw [heq]
  exact (reordered_canon right).symm

end Canonical

section Lines

variable (codec : ScalarCodec N)

/-- The line of an item. -/
def itemLine (level : Nat) (item : Value N) : PyText := pad level ++ renderAt codec level item

/-- The line of a member. -/
def memberLine (level : Nat) (member : PyText × Value N) : PyText :=
  pad level ++ codec.dumpsText member.1 ++ say [':', ' '] ++ renderAt codec level member.2

theorem renderItems_eq (level : Nat) (items : List (Value N)) :
    renderItems codec level items = items.map (itemLine codec level) := by
  induction items with
  | nil => rfl
  | cons item rest ih => rw [renderItems, ih, List.map_cons, itemLine]

/-- The line of a member, with its name. -/
def namedLine (level : Nat) (member : PyText × Value N) : PyText × PyText :=
  (member.1, memberLine codec level member)

theorem renderMembers_eq (level : Nat) (members : List (PyText × Value N)) :
    renderMembers codec level members = members.map (namedLine codec level) := by
  induction members with
  | nil => rfl
  | cons member rest ih => rw [renderMembers, ih, List.map_cons, namedLine, memberLine]

theorem renderAt_list (level : Nat) {items : List (Value N)} (hitems : items ≠ []) :
    renderAt codec level (.list items) =
      framed '[' ']' level (items.map (itemLine codec (level + 1))) := by
  cases items with
  | nil => exact absurd rfl hitems
  | cons item rest => rw [renderAt, renderItems_eq]

/-- The lines of an object are those of its sorted members. -/
theorem renderAt_dict (level : Nat) {members : List (PyText × Value N)}
    (hmembers : members ≠ []) :
    renderAt codec level (.dict members) =
      framed '\x7b' '\x7d' level
        ((sortedByKey members).map (memberLine codec (level + 1))) := by
  cases members with
  | nil => exact absurd rfl hmembers
  | cons member rest =>
      rw [renderAt, renderMembers_eq, sortedByKey_map (namedLine codec (level + 1)) fun _ => rfl,
        List.map_map]
      rfl

/-- The characters that a value starts with. -/
def valueStarts : List Char := ['"', '[', '\x7b', 'n', 't', 'f'] ++ numberStarts

def Opens (text : PyText) : Prop := ∃ c more, text = .scalar c :: more ∧ c ∈ valueStarts

theorem opens_framed (opening closing : Char) (level : Nat) (lines : List PyText)
    (hopening : opening ∈ valueStarts) : Opens (framed opening closing level lines) :=
  ⟨opening, _, rfl, hopening⟩

theorem opens_text (text rest : PyText) : Opens (codec.dumpsText text ++ rest) := by
  obtain ⟨more, hmore⟩ := codec.text_starts text
  exact ⟨'"', more ++ rest, by rw [hmore, List.cons_append], by decide⟩

theorem opens_renderAt (level : Nat) (value : Value N) : Opens (renderAt codec level value) := by
  cases value with
  | null => exact ⟨'n', _, rfl, by decide⟩
  | bool b =>
      cases b with
      | true => exact ⟨'t', _, rfl, by decide⟩
      | false => exact ⟨'f', _, rfl, by decide⟩
  | number n =>
      obtain ⟨c, more, hmore, hc⟩ := codec.number_starts n
      exact ⟨c, more, hmore, List.mem_append_right _ hc⟩
  | text text =>
      rw [renderAt]
      simpa using opens_text codec text []
  | list items =>
      cases items with
      | nil => exact ⟨'[', _, rfl, by decide⟩
      | cons item rest => exact opens_framed _ _ _ _ (by decide)
  | dict members =>
      cases members with
      | nil => exact ⟨'\x7b', _, rfl, by decide⟩
      | cons member rest => exact opens_framed _ _ _ _ (by decide)

end Lines

section Skipping

theorem skip_pad (level : Nat) (text : PyText) : skip (pad level ++ text) = skip text := by
  refine List.dropWhile_append_of_pos fun c hc => ?_
  rw [List.eq_of_mem_replicate hc]
  decide

@[simp] theorem skip_break (text : PyText) : skip (.scalar '\n' :: text) = skip text := rfl

@[simp] theorem skip_blank (text : PyText) : skip (.scalar ' ' :: text) = skip text := rfl

/-- White space ends where a value starts. -/
theorem Opens.skip {text : PyText} (hopens : Opens text) (rest : PyText) :
    skip (text ++ rest) = text ++ rest := by
  obtain ⟨c, more, rfl, hc⟩ := hopens
  have hstarts : valueStarts.all fun c => !isJsonSpace (.scalar c) := by decide
  have hspace := List.all_eq_true.mp hstarts c hc
  rw [Bool.not_eq_true'] at hspace
  exact List.dropWhile_cons_of_neg (by simp [hspace])

end Skipping

section RoundTrip

variable (codec : ScalarCodec N)

/-- What stands after a value. -/
def Followed (rest : PyText) : Prop := ∀ c ∈ rest.head?, ∃ letter ∈ follows, c = .scalar letter

theorem followed_scalar {letter : Char} (hletter : letter ∈ follows) (rest : PyText) :
    Followed (.scalar letter :: rest) := by
  intro c hc
  exact ⟨letter, hletter, (Option.some.inj hc).symm⟩

/-- The parser gives the rendering of a value back in canonical form. -/
def Parses (value : Value N) : Prop :=
  ∀ level fuel rest, (renderAt codec level value).length < fuel → Followed rest →
    parseValue codec fuel (renderAt codec level value ++ rest) = some (canon value, rest)

/-- The lines from the first one's text on, with the bracket that closes them. -/
def closed (closing : Char) (level : Nat) (lines : List PyText) (rest : PyText) : PyText :=
  (say [',', '\n']).intercalate lines ++
    .scalar '\n' :: (pad level ++ .scalar closing :: rest)

theorem framed_append (opening closing : Char) (level : Nat) (lines : List PyText)
    (rest : PyText) : framed opening closing level lines ++ rest =
      .scalar opening :: .scalar '\n' :: closed closing level lines rest := by
  simp [framed, closed, say, PyText.ofLetters]

theorem framed_length (opening closing : Char) (level : Nat) (lines : List PyText) :
    (framed opening closing level lines).length =
      ((say [',', '\n']).intercalate lines).length + 2 * level + 4 := by
  simp [framed, say, PyText.ofLetters, pad]
  omega

theorem closed_singleton (closing : Char) (level : Nat) (line rest : PyText) :
    closed closing level [line] rest =
      line ++ .scalar '\n' :: (pad level ++ .scalar closing :: rest) := by
  rw [closed, List.intercalate_singleton]

theorem closed_cons (closing : Char) (level : Nat) (line next : PyText) (lines : List PyText)
    (rest : PyText) : closed closing level (line :: next :: lines) rest =
      line ++ .scalar ',' :: .scalar '\n' :: closed closing level (next :: lines) rest := by
  simp [closed, List.intercalate_cons_cons, say, PyText.ofLetters]

theorem skip_closing {closing : Char} (hclosing : isJsonSpace (.scalar closing) = false)
    (level : Nat) (rest : PyText) :
    skip (.scalar '\n' :: (pad level ++ .scalar closing :: rest)) = .scalar closing :: rest := by
  rw [skip_break, skip_pad]
  exact List.dropWhile_cons_of_neg (by simp [hclosing])

theorem comma_length : (say [',', '\n']).length = 2 := rfl

theorem skip_comma (text : PyText) : skip (.scalar ',' :: text) = .scalar ',' :: text := rfl

theorem skip_itemLine (level : Nat) (item : Value N) (rest : PyText) :
    skip (itemLine codec level item ++ rest) = renderAt codec level item ++ rest := by
  rw [itemLine, List.append_assoc, skip_pad, (opens_renderAt codec level item).skip]

theorem skip_memberLine (level : Nat) (member : PyText × Value N) (rest : PyText) :
    skip (memberLine codec level member ++ rest) =
      codec.dumpsText member.1 ++ .scalar ':' :: .scalar ' ' ::
        (renderAt codec level member.2 ++ rest) := by
  have hopens := opens_text codec member.1 []
  rw [List.append_nil] at hopens
  rw [memberLine, List.append_assoc, List.append_assoc, List.append_assoc, skip_pad, hopens.skip]
  rfl

/-- The items between the brackets are parsed one by one. -/
theorem parseItems_closed {items : List (Value N)} (hitems : items ≠ [])
    (hparses : ∀ item ∈ items, Parses codec item) (level outer fuel : Nat) (rest : PyText)
    (hfuel : ((say [',', '\n']).intercalate
      (items.map (itemLine codec level))).length + 1 < fuel) :
    parseItems codec fuel
      (skip (closed ']' outer (items.map (itemLine codec level)) rest)) =
        some (items.map canon, rest) := by
  induction items generalizing fuel with
  | nil => exact absurd rfl hitems
  | cons item items ih =>
      have hitem := hparses item List.mem_cons_self
      obtain ⟨fuel, rfl⟩ : ∃ n, fuel = n + 1 := ⟨fuel - 1, by omega⟩
      cases items with
      | nil =>
          rw [List.map_singleton, List.intercalate_singleton, itemLine,
            List.length_append] at hfuel
          rw [List.map_singleton, closed_singleton, skip_itemLine, parseItems,
            hitem level fuel _ (by omega) (followed_scalar (by decide) _)]
          simp only [@skip_closing ']' (by decide)]
          rfl
      | cons next items =>
          rw [List.map_cons, List.map_cons, List.intercalate_cons_cons, ← List.map_cons,
            List.length_append, List.length_append, itemLine, List.length_append] at hfuel
          rw [List.map_cons, List.map_cons, closed_cons, skip_itemLine, parseItems,
            hitem level fuel _ (by omega) (followed_scalar (by decide) _), ← List.map_cons]
          have hrest := ih (by simp) (fun other hother => hparses other (.tail _ hother)) fuel
            (by rw [comma_length] at hfuel; omega)
          simp only [skip_comma, skip_break, hrest]
          rfl

theorem parseMembers_member (fuel level : Nat) (member : PyText × Value N) (rest : PyText) :
    parseMembers codec (fuel + 1) (codec.dumpsText member.1 ++ .scalar ':' :: .scalar ' ' ::
        (renderAt codec level member.2 ++ rest)) =
      match parseValue codec fuel (renderAt codec level member.2 ++ rest) with
      | none => none
      | some (item, rest) =>
          match skip rest with
          | .scalar '\x7d' :: rest => some ([(member.1, item)], rest)
          | .scalar ',' :: rest =>
              (parseMembers codec fuel (skip rest)).map fun parsed =>
                ((member.1, item) :: parsed.1, parsed.2)
          | _ => none := by
  obtain ⟨more, hmore⟩ := codec.text_starts member.1
  have hscan := codec.scanText_dumps member.1
    (.scalar ':' :: .scalar ' ' :: (renderAt codec level member.2 ++ rest))
  have hcolon (text : PyText) : skip (.scalar ':' :: text) = .scalar ':' :: text := rfl
  rw [hmore, List.cons_append] at hscan ⊢
  rw [parseMembers]
  simp only [hscan, hcolon, skip_blank, (opens_renderAt codec level member.2).skip]

/-- The members between the braces are parsed one by one. -/
theorem parseMembers_closed {members : List (PyText × Value N)} (hmembers : members ≠ [])
    (hparses : ∀ member ∈ members, Parses codec member.2) (level outer fuel : Nat)
    (rest : PyText)
    (hfuel : ((say [',', '\n']).intercalate
      (members.map (memberLine codec level))).length + 1 < fuel) :
    parseMembers codec fuel
      (skip (closed '\x7d' outer (members.map (memberLine codec level)) rest)) =
        some (members.map canonMember, rest) := by
  induction members generalizing fuel with
  | nil => exact absurd rfl hmembers
  | cons member members ih =>
      have hitem := hparses member List.mem_cons_self
      obtain ⟨fuel, rfl⟩ : ∃ n, fuel = n + 1 := ⟨fuel - 1, by omega⟩
      cases members with
      | nil =>
          rw [List.map_singleton, List.intercalate_singleton, memberLine,
            List.length_append] at hfuel
          rw [List.map_singleton, closed_singleton, skip_memberLine, parseMembers_member,
            hitem level fuel _ (by omega) (followed_scalar (by decide) _)]
          simp only [@skip_closing '\x7d' (by decide)]
          rfl
      | cons next members =>
          rw [List.map_cons, List.map_cons, List.intercalate_cons_cons, ← List.map_cons,
            List.length_append, List.length_append, memberLine, List.length_append] at hfuel
          rw [List.map_cons, List.map_cons, closed_cons, skip_memberLine, parseMembers_member,
            hitem level fuel _ (by omega) (followed_scalar (by decide) _), ← List.map_cons]
          have hrest := ih (by simp) (fun other hother => hparses other (.tail _ hother)) fuel
            (by rw [comma_length] at hfuel; omega)
          simp only [skip_comma, skip_break, hrest]
          rfl

theorem opens_items {items : List (Value N)} (hitems : items ≠ []) (level outer : Nat)
    (rest : PyText) :
    Opens (skip (closed ']' outer (items.map (itemLine codec level)) rest)) := by
  cases items with
  | nil => exact absurd rfl hitems
  | cons item items =>
      obtain ⟨c, more, hmore, hc⟩ := opens_renderAt codec level item
      cases items with
      | nil =>
          rw [List.map_singleton, closed_singleton, skip_itemLine, hmore, List.cons_append]
          exact ⟨c, _, rfl, hc⟩
      | cons next items =>
          rw [List.map_cons, List.map_cons, closed_cons, skip_itemLine, hmore, List.cons_append]
          exact ⟨c, _, rfl, hc⟩

theorem opens_members {members : List (PyText × Value N)} (hmembers : members ≠ [])
    (level outer : Nat) (rest : PyText) :
    Opens (skip (closed '\x7d' outer (members.map (memberLine codec level)) rest)) := by
  cases members with
  | nil => exact absurd rfl hmembers
  | cons member members =>
      cases members with
      | nil =>
          rw [List.map_singleton, closed_singleton, skip_memberLine]
          exact opens_text codec member.1 _
      | cons next members =>
          rw [List.map_cons, List.map_cons, closed_cons, skip_memberLine]
          exact opens_text codec member.1 _

theorem parseValue_bracket (fuel : Nat) {text : PyText} (hopens : Opens (skip text)) :
    parseValue codec (fuel + 1) (.scalar '[' :: text) =
      (parseItems codec fuel (skip text)).map fun parsed => (.list parsed.1, parsed.2) := by
  obtain ⟨c, more, hmore, hc⟩ := hopens
  have hclosing : c ≠ ']' := by
    rintro rfl
    exact absurd hc (by decide)
  rw [parseValue, if_neg (by decide), if_pos rfl, hmore]
  split
  · next heq =>
      simp only [List.cons.injEq, PyChar.scalar.injEq] at heq
      exact absurd heq.1 hclosing
  · rfl

theorem parseValue_brace (fuel : Nat) {text : PyText} (hopens : Opens (skip text)) :
    parseValue codec (fuel + 1) (.scalar '\x7b' :: text) =
      (parseMembers codec fuel (skip text)).map fun parsed => (dictOf parsed.1, parsed.2) := by
  obtain ⟨c, more, hmore, hc⟩ := hopens
  have hclosing : c ≠ '\x7d' := by
    rintro rfl
    exact absurd hc (by decide)
  rw [parseValue, if_neg (by decide), if_neg (by decide), if_pos rfl, hmore]
  split
  · next heq =>
      simp only [List.cons.injEq, PyChar.scalar.injEq] at heq
      exact absurd heq.1 hclosing
  · rfl

/-- Members with names of their own are all kept. -/
theorem dictOf_nodup {members : List (PyText × Value N)}
    (hnodup : (members.map Prod.fst).Nodup) : dictOf members = .dict members := by
  have hall (front back : List (PyText × Value N))
      (hboth : ((front ++ back).map Prod.fst).Nodup) :
      back.foldl assign front = front ++ back := by
    induction back generalizing front with
    | nil => simp
    | cons member back ih =>
        have hnew : member.1 ∉ front.map Prod.fst := by
          rw [List.map_append, List.map_cons, List.nodup_append] at hboth
          exact fun hmember => hboth.2.2 _ hmember _ List.mem_cons_self rfl
        rw [List.foldl_cons, assign, if_neg hnew, ih _ (by simpa using hboth)]
        simp
  rw [dictOf, hall [] members hnodup, List.nil_append]

theorem parseValue_number (n : N) (fuel : Nat) {rest : PyText} (hrest : Followed rest) :
    parseValue codec (fuel + 1) (codec.dumpsNumber n ++ rest) = some (.number n, rest) := by
  obtain ⟨c, more, hmore, hc⟩ := codec.number_starts n
  have hscan := codec.scanNumber_dumps n rest hrest
  have hother : ∀ other ∈ ['"', '[', '\x7b', 'n', 't', 'f'], c ≠ other := by
    rintro other hother rfl
    exact absurd hc (List.all_eq_true.mp (by decide :
      (['"', '[', '\x7b', 'n', 't', 'f'].all fun other => other ∉ numberStarts) = true)
      c hother |> of_decide_eq_true)
  have hword (first : Char) (letters : List Char)
      (hfirst : first ∈ ['"', '[', '\x7b', 'n', 't', 'f']) :
      ¬ say (first :: letters) <+: .scalar c :: (more ++ rest) := by
    intro hprefix
    obtain ⟨hhead, -⟩ := List.cons_prefix_cons.mp hprefix
    exact hother first hfirst (PyChar.scalar.inj hhead).symm
  rw [hmore, List.cons_append] at hscan ⊢
  rw [parseValue, if_neg (hother _ (by decide)), if_neg (hother _ (by decide)),
    if_neg (hother _ (by decide)), if_neg (hword _ _ (by decide)),
    if_neg (hword _ _ (by decide)), if_neg (hword _ _ (by decide)), hscan]
  rfl

theorem parseValue_text (text : PyText) (fuel : Nat) (rest : PyText) :
    parseValue codec (fuel + 1) (codec.dumpsText text ++ rest) = some (.text text, rest) := by
  obtain ⟨more, hmore⟩ := codec.text_starts text
  have hscan := codec.scanText_dumps text rest
  rw [hmore, List.cons_append] at hscan ⊢
  rw [parseValue, if_pos rfl, hscan]
  rfl

/-- Every rendering is parsed to the canonical form of its value. -/
theorem parses (value : Value N) (hunique : UniqueNames value) : Parses codec value := by
  induction value using Value.induct with
  | null =>
      intro level fuel rest hfuel _
      obtain ⟨fuel, rfl⟩ : ∃ n, fuel = n + 1 := ⟨fuel - 1, by omega⟩
      simp [renderAt, parseValue, canon, say, PyText.ofLetters]
  | bool b =>
      intro level fuel rest hfuel _
      obtain ⟨fuel, rfl⟩ : ∃ n, fuel = n + 1 := ⟨fuel - 1, by omega⟩
      cases b <;> simp [renderAt, parseValue, canon, say, PyText.ofLetters]
  | number n =>
      intro level fuel rest hfuel hrest
      obtain ⟨fuel, rfl⟩ : ∃ n, fuel = n + 1 := ⟨fuel - 1, by omega⟩
      rw [renderAt, canon, parseValue_number codec n fuel hrest]
  | text text =>
      intro level fuel rest hfuel _
      obtain ⟨fuel, rfl⟩ : ∃ n, fuel = n + 1 := ⟨fuel - 1, by omega⟩
      rw [renderAt, canon, parseValue_text]
  | list items ih =>
      intro level fuel rest hfuel _
      obtain ⟨fuel, rfl⟩ : ∃ n, fuel = n + 1 := ⟨fuel - 1, by omega⟩
      by_cases hitems : items = []
      · subst hitems
        rfl
      rw [uniqueNames_list] at hunique
      have hparses : ∀ item ∈ items, Parses codec item := fun item hitem =>
        ih item hitem (hunique item hitem)
      rw [renderAt_list codec level hitems, framed_length] at hfuel
      rw [renderAt_list codec level hitems, framed_append, canon_list,
        parseValue_bracket codec fuel (by
          rw [skip_break]
          exact opens_items codec hitems _ _ _),
        skip_break, parseItems_closed codec hitems hparses _ _ _ _ (by omega)]
      rfl
  | dict members ih =>
      intro level fuel rest hfuel _
      obtain ⟨fuel, rfl⟩ : ∃ n, fuel = n + 1 := ⟨fuel - 1, by omega⟩
      by_cases hmembers : members = []
      · subst hmembers
        rfl
      have hperm := sortedByKey_perm members
      have hsorted : sortedByKey members ≠ [] := fun hnil =>
        hmembers (List.nil_perm.mp (hnil ▸ hperm))
      rw [uniqueNames_dict] at hunique
      have hparses : ∀ member ∈ sortedByKey members, Parses codec member.2 :=
        fun member hmember => ih member (hperm.mem_iff.mp hmember)
          (hunique.2 member (hperm.mem_iff.mp hmember))
      have hnames : (((sortedByKey members).map canonMember).map Prod.fst).Nodup := by
        rw [List.map_map]
        exact ((hperm.map Prod.fst).nodup_iff).mpr hunique.1
      rw [renderAt_dict codec level hmembers, framed_length] at hfuel
      rw [renderAt_dict codec level hmembers, framed_append, canon_dict,
        parseValue_brace codec fuel (by
          rw [skip_break]
          exact opens_members codec hsorted _ _ _),
        skip_break, parseMembers_closed codec hsorted hparses _ _ _ _ (by omega),
        Option.map_some, dictOf_nodup hnames]

/-- Parsing a rendered value gives its canonical form. -/
theorem loads_renderJson {value : Value N} (hunique : UniqueNames value) :
    loads codec (renderJson codec value) = some (canon value) := by
  have hopens := (opens_renderAt codec 0 value).skip (say ['\n'])
  have hparsed := parses codec value hunique 0 ((renderJson codec value).length + 1)
    (say ['\n']) (by rw [renderJson, List.length_append]; omega)
    (followed_scalar (by decide) [])
  rw [loads]
  unfold renderJson at hparsed ⊢
  rw [hopens, hparsed]
  rfl

theorem sortedByKey_sortedByKey {V : Type} (items : List (PyText × V)) :
    sortedByKey (sortedByKey items) = sortedByKey items :=
  (List.pairwise_insertionSort Before items).insertionSort_eq

/-- A value and its canonical form have the same text. -/
theorem renderAt_canon (value : Value N) (level : Nat) :
    renderAt codec level (canon value) = renderAt codec level value := by
  induction value using Value.induct generalizing level with
  | null => rfl
  | bool b => rfl
  | number n => rfl
  | text text => rfl
  | list items ih =>
      by_cases hitems : items = []
      · subst hitems
        rfl
      rw [canon_list, renderAt_list codec level (by simpa using hitems),
        renderAt_list codec level hitems, List.map_map]
      congr 1
      refine List.map_congr_left fun item hitem => ?_
      rw [Function.comp_apply, itemLine, itemLine, ih item hitem]
  | dict members ih =>
      by_cases hmembers : members = []
      · subst hmembers
        rfl
      have hperm := sortedByKey_perm members
      have hsorted : (sortedByKey members).map canonMember ≠ [] := fun hnil =>
        hmembers (List.nil_perm.mp (List.map_eq_nil_iff.mp hnil ▸ hperm))
      rw [canon_dict, renderAt_dict codec level hsorted, renderAt_dict codec level hmembers,
        sortedByKey_map canonMember fun _ => rfl, sortedByKey_sortedByKey, List.map_map]
      congr 1
      refine List.map_congr_left fun member hmember => ?_
      rw [Function.comp_apply, memberLine, memberLine, canonMember,
        ih member (hperm.mem_iff.mp hmember)]

/-- Two values have the same text exactly when they have the same canonical form. -/
theorem renderJson_eq_iff {left right : Value N} (hleft : UniqueNames left)
    (hright : UniqueNames right) :
    renderJson codec left = renderJson codec right ↔ canon left = canon right := by
  constructor
  · intro htext
    have hloads := loads_renderJson codec hleft
    rw [htext, loads_renderJson codec hright] at hloads
    exact (Option.some.inj hloads).symm
  · intro hcanon
    rw [renderJson, renderJson, ← renderAt_canon, hcanon, renderAt_canon]

/-- A value as Python holds it: the names of an object differ. -/
structure JsonValue (N : Type) where
  value : Value N
  names : UniqueNames value

/-- Parsing what was rendered gives the value back, up to the order of members, and
values have the same text exactly when they differ in nothing else. -/
theorem render_json_canonical (left right : JsonValue N) :
    (∃ parsed, loads codec (renderJson codec left.value) = some parsed ∧
      Reordered left.value parsed) ∧
    (renderJson codec left.value = renderJson codec right.value ↔
      Reordered left.value right.value) := by
  refine ⟨⟨canon left.value, loads_renderJson codec left.names, reordered_canon _⟩, ?_⟩
  rw [renderJson_eq_iff codec left.names right.names, reordered_iff_canon left.names]

end RoundTrip

namespace RenderWitness

/-- What `json.dumps` writes for a character; a surrogate stands for itself. -/
def escape : PyChar → PyText
  | .scalar c => say (Json.escapeChar c)
  | .surrogate s => [.surrogate s]

/-- The characters up to the closing quote, and what follows it. -/
def scanString : PyText → Option (PyText × PyText)
  | [] => none
  | .scalar '"' :: rest => some ([], rest)
  | .scalar '\\' :: .scalar 'u' :: .scalar '0' :: .scalar '0' :: .scalar high ::
      .scalar low :: rest =>
      (scanString rest).map fun scanned =>
        (.scalar (Char.ofNat (16 * Json.hexValue high + Json.hexValue low)) :: scanned.1,
          scanned.2)
  | .scalar '\\' :: .scalar c :: rest =>
      (scanString rest).map fun scanned => (.scalar (Json.unescape c) :: scanned.1, scanned.2)
  | c :: rest => (scanString rest).map fun scanned => (c :: scanned.1, scanned.2)

theorem scanString_escape (c : PyChar) (rest : PyText) :
    scanString (escape c ++ rest) =
      (scanString rest).map fun scanned => (c :: scanned.1, scanned.2) := by
  cases c with
  | surrogate s => rfl
  | scalar c =>
      rw [escape]
      unfold Json.escapeChar
      -- the short escapes
      iterate 7
        split
        next h => subst h; simp [say, PyText.ofLetters, scanString, Json.unescape]
      split
      next hcontrol =>
        have hhex : ∀ n < 16, Json.hexValue (Nat.digitChar n) = n := by decide
        have hback : 16 * (c.toNat / 16) + c.toNat % 16 = c.toNat := by omega
        simp only [say, PyText.ofLetters, List.map_cons, List.map_nil, List.cons_append,
          List.nil_append, scanString, hhex _ (by omega : c.toNat / 16 < 16),
          hhex _ (by omega : c.toNat % 16 < 16), hback, Char.ofNat_toNat]
      next hquote hslash _ _ _ _ _ _ =>
        simp only [say, PyText.ofLetters, List.map_cons, List.map_nil, List.cons_append,
          List.nil_append]
        rw [scanString.eq_def]
        split <;> simp_all

theorem scanString_flatMap (text rest : PyText) :
    scanString (text.flatMap escape ++ .scalar '"' :: rest) = some (text, rest) := by
  induction text with
  | nil => simp [scanString]
  | cons c text ih =>
      rw [List.flatMap_cons, List.append_assoc, scanString_escape, ih]
      rfl

def isNumberChar : PyChar → Bool
  | .scalar c => c ∈ numberStarts
  | .surrogate _ => false

def scanInt (text : PyText) : Option (Int × PyText) :=
  match Json.parseInt (PyText.scalars (text.takeWhile isNumberChar)) with
  | some (n, []) => some (n, text.dropWhile isNumberChar)
  | _ => none

theorem digit_starts {c : Char} (hc : c.isDigit) : c ∈ numberStarts := by
  have hall : ∀ n < 58, 48 ≤ n → Char.ofNat n ∈ numberStarts := by decide
  have hrange : 48 ≤ c.toNat ∧ c.toNat ≤ 57 := by
    simpa [Char.isDigit, UInt32.le_iff_toNat_le] using hc
  rw [← Char.ofNat_toNat c]
  exact hall c.toNat (by omega) hrange.1

theorem renderInt_letters (n : Int) : ∀ c ∈ Json.renderInt n, c ∈ numberStarts := by
  have hdigits (m : Nat) : ∀ c ∈ Nat.toDigits 10 m, c ∈ numberStarts := fun c hc =>
    digit_starts (Nat.isDigit_of_mem_toDigits (by decide) (by decide) hc)
  cases n with
  | ofNat m => exact hdigits m
  | negSucc m =>
      intro c hc
      rcases List.mem_cons.mp hc with rfl | hc
      · decide
      · exact hdigits (m + 1) c hc

theorem renderInt_starts (n : Int) :
    ∃ c more, say (Json.renderInt n) = .scalar c :: more ∧ c ∈ numberStarts := by
  obtain ⟨c, more, hmore, -⟩ := Json.renderInt_head n
  refine ⟨c, say more, by rw [hmore]; rfl, renderInt_letters n c ?_⟩
  rw [hmore]
  exact List.mem_cons_self

theorem scanInt_renderInt (n : Int) (rest : PyText)
    (hrest : ∀ c ∈ rest.head?, ∃ letter ∈ follows, c = .scalar letter) :
    scanInt (say (Json.renderInt n) ++ rest) = some (n, rest) := by
  have hall : ∀ c ∈ say (Json.renderInt n), isNumberChar c = true := by
    intro c hc
    obtain ⟨letter, hletter, rfl⟩ := List.mem_map.mp hc
    simpa [isNumberChar] using renderInt_letters n letter hletter
  have hstop : rest.takeWhile isNumberChar = [] ∧ rest.dropWhile isNumberChar = rest := by
    cases rest with
    | nil => exact ⟨rfl, rfl⟩
    | cons c more =>
        obtain ⟨letter, hletter, rfl⟩ := hrest c rfl
        have hother : isNumberChar (.scalar letter) = false := by
          have hfollows : follows.all fun letter => !isNumberChar (.scalar letter) := by decide
          simpa using List.all_eq_true.mp hfollows letter hletter
        simp [hother]
  have hscalars : PyText.scalars (say (Json.renderInt n)) = Json.renderInt n := by
    have hencoded := PyText.letters?_ofLetters (Json.renderInt n)
    exact ((PyText.letters?_eq_some_iff _ _).mp hencoded).2.symm
  have hparsed := @Json.parseInt_renderInt n [] (by simp)
  rw [List.append_nil] at hparsed
  rw [scanInt, List.takeWhile_append_of_pos hall, List.dropWhile_append_of_pos hall, hstop.1,
    hstop.2, List.append_nil, hscalars, hparsed]

/-- The texts and the whole numbers. -/
def intCodec : ScalarCodec Int where
  dumpsText text := .scalar '"' :: (text.flatMap escape ++ [.scalar '"'])
  dumpsNumber n := say (Json.renderInt n)
  scanText
    | .scalar '"' :: rest => scanString rest
    | _ => none
  scanNumber := scanInt
  text_starts text := ⟨_, rfl⟩
  number_starts := renderInt_starts
  scanText_dumps text rest := by
    simp only [List.cons_append, List.append_assoc, List.nil_append]
    exact scanString_flatMap text rest
  scanNumber_dumps := scanInt_renderInt

/-- `{"b": [1, {}], "a": null}`. -/
def sample : JsonValue Int where
  value := .dict [(say ['b'], .list [.number 1, .dict []]), (say ['a'], .null)]
  names := by simp [UniqueNames, UniqueMembers, UniqueItems, say, PyText.ofLetters]

def sampleSorted : JsonValue Int where
  value := .dict [(say ['a'], .null), (say ['b'], .list [.number 1, .dict []])]
  names := by simp [UniqueNames, UniqueMembers, UniqueItems, say, PyText.ofLetters]

/-- The two orders of the members have one text. -/
theorem render_json_sample :
    renderJson intCodec sample.value = renderJson intCodec sampleSorted.value :=
  (render_json_canonical intCodec sample sampleSorted).2.mpr (.members (.swap _ _ _))

end RenderWitness

end RenderJson

end HermesPipeline
