/-
RFC 6901.  A list of tokens has one text, and leads through a document: to the
member of that name in an object, to the item of that index in an array.  How an
index is written is a parameter; the standard's numerals are one choice of it.
-/
import HermesPipeline.Lib.Json
import HermesPipeline.Lib.Pieces

namespace Lib

namespace JsonPointer

def escapeChar (c : Char) : List Char :=
  if c = '~' then ['~', '0'] else if c = '/' then ['~', '1'] else [c]

/-- A token as it stands in a pointer. -/
def escape (token : String) : List Char := token.toList.flatMap escapeChar

/-- The text of a pointer. -/
def render (tokens : List String) : List Char :=
  tokens.flatMap fun token => '/' :: escape token

/-- The value that tokens lead to, with the indices on the way. -/
inductive Leads (reads : String → Nat → Prop) :
    Json → List String → List (String × Nat) → Json → Prop
  | here (value : Json) : Leads reads value [] [] value
  | member {members : List (String × Json)} {token : String} {value result : Json}
      {rest : List String} {used : List (String × Nat)}
      (hmember : Json.member? members token = some value)
      (hrest : Leads reads value rest used result) :
      Leads reads (.obj members) (token :: rest) used result
  | item {items : List Json} {token : String} {index : Nat} {value result : Json}
      {rest : List String} {used : List (String × Nat)} (hreads : reads token index)
      (hitem : items[index]? = some value) (hrest : Leads reads value rest used result) :
      Leads reads (.arr items) (token :: rest) ((token, index) :: used) result

/-- A numeral in ASCII without leading zeros. -/
def IsIndex (token : String) (index : Nat) : Prop := token = toString index

/-- The text is a pointer that evaluates to a value of the document. -/
def Resolves (document : Json) (pointer : String) : Prop :=
  ∃ tokens used value, pointer.toList = render tokens ∧
    Leads IsIndex document tokens used value

section Escapes

theorem slash_not_mem_escape (token : String) : '/' ∉ escape token := by
  rw [escape, List.mem_flatMap]
  rintro ⟨c, -, hc⟩
  rw [escapeChar] at hc
  split at hc
  · simp at hc
  · split at hc
    · simp at hc
    · next hslash => exact hslash (List.mem_singleton.mp hc).symm

theorem render_cons (token : String) (rest : List String) :
    render (token :: rest) = '/' :: (escape token ++ render rest) := rfl

/-- The tokens of a text stand between its slashes. -/
theorem render_eq_intercalate (token : String) (rest : List String) :
    render (token :: rest) = '/' :: ['/'].intercalate ((token :: rest).map escape) := by
  induction rest generalizing token with
  | nil => simp [render]
  | cons next rest ih =>
      rw [render_cons, ih next]
      simp [List.intercalate]

/-- A text after its first slash has these tokens where they are its pieces. -/
theorem render_eq_iff (text : List Char) (tokens : List String) :
    '/' :: text = render tokens ↔ text.splitOn '/' = tokens.map escape := by
  constructor
  · intro htext
    cases tokens with
    | nil => cases htext
    | cons token rest =>
        rw [render_eq_intercalate] at htext
        rw [(List.cons.inj htext).2, List.splitOn_intercalate]
        · simp only [List.mem_map]
          rintro _ ⟨token, -, rfl⟩
          exact slash_not_mem_escape token
        · simp
  · intro hsplit
    cases tokens with
    | nil => exact absurd hsplit (List.splitOn_ne_nil '/' text)
    | cons token rest => rw [render_eq_intercalate, ← hsplit, List.intercalate_splitOn]

end Escapes

section Leading

variable {reads reads' : String → Nat → Prop} {document value value' : Json}
  {tokens : List String} {used used' : List (String × Nat)}

/-- Fewer ways to write an index lead where the indices on the way are written in
them. -/
theorem leads_and_iff {P : String → Nat → Prop} :
    Leads (fun token index => reads token index ∧ P token index) document tokens used
        value ↔
      Leads reads document tokens used value ∧ ∀ entry ∈ used, P entry.1 entry.2 := by
  constructor
  · intro hleads
    induction hleads with
    | here value => exact ⟨.here value, by simp⟩
    | member hmember _ ih => exact ⟨.member hmember ih.1, ih.2⟩
    | item hreads hitem _ ih =>
        exact ⟨.item hreads.1 hitem ih.1, List.forall_mem_cons.mpr ⟨hreads.2, ih.2⟩⟩
  · rintro ⟨hleads, hused⟩
    induction hleads with
    | here value => exact .here value
    | member hmember _ ih => exact .member hmember (ih hused)
    | item hreads hitem _ ih =>
        obtain ⟨hfirst, hrest⟩ := List.forall_mem_cons.mp hused
        exact .item ⟨hreads, hfirst⟩ hitem (ih hrest)

/-- The indices on the way are read from their texts. -/
theorem leads_reads (hleads : Leads reads document tokens used value) :
    ∀ entry ∈ used, reads entry.1 entry.2 := by
  induction hleads with
  | here value => simp
  | member _ _ ih => exact ih
  | item hreads _ _ ih => exact List.forall_mem_cons.mpr ⟨hreads, ih⟩

/-- Two readings that never read a text as different indices lead the same way. -/
theorem leads_unique
    (hreads : ∀ token index index', reads token index → reads' token index' →
      index = index')
    (hleads : Leads reads document tokens used value)
    (hleads' : Leads reads' document tokens used' value') :
    used = used' ∧ value = value' := by
  induction hleads generalizing used' value' with
  | here value =>
      cases hleads'
      exact ⟨rfl, rfl⟩
  | member hmember _ ih =>
      cases hleads' with
      | member hmember' hrest' =>
          rw [hmember, Option.some.injEq] at hmember'
          subst hmember'
          exact ih hrest'
  | item hread hitem _ ih =>
      cases hleads' with
      | item hread' hitem' hrest' =>
          obtain rfl := hreads _ _ _ hread hread'
          rw [hitem, Option.some.injEq] at hitem'
          subst hitem'
          obtain ⟨rfl, rfl⟩ := ih hrest'
          exact ⟨rfl, rfl⟩

end Leading

end JsonPointer

end Lib
