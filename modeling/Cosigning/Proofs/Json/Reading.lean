import Cosigning.Json.Reader
import Cosigning.Proofs.Json.Token

/-!
# Values read back

What is written on one line is read back, provided that numbers are readable and that
arrays and objects are not nested deeper than the reader allows.
-/

namespace Cosigning
namespace Json

open ReaderState

/-!
## One token after the other
-/

def scan? (state : ReaderState) (cs : List Char) : Option ReaderState :=
  (Token.ofChars? cs).bind (fun tokens => tokens.foldlM step state)

theorem read?_eq (text : String) :
    read? text = (scan? start text.toList).bind result? := by
  simp only [read?, Value.ofTokens?, scan?, Option.bind_eq_bind, Option.bind_assoc]

theorem scan?_nil (state : ReaderState) : scan? state [] = some state := by
  rw [scan?, Token.ofChars?]
  rfl

theorem scan?_cons {state next : ReaderState} {c : Char} {rest after : List Char} {token : Token}
    (hblank : Token.isBlank c = false) (hfirst : Token.first? c rest = some (token, after))
    (hstep : step state token = some next) : scan? state (c :: rest) = scan? next after := by
  have hchars : Token.ofChars? (c :: rest) =
      (Token.ofChars? after).map (fun tokens => token :: tokens) := by
    rw [Token.ofChars?, hblank, if_neg Bool.false_ne_true]
    split
    · rename_i hnone
      rw [hfirst] at hnone
      cases hnone
    · rename_i hsome
      rw [hfirst] at hsome
      cases hsome
      rfl
  rw [scan?, hchars, Option.bind_map, scan?]
  congr 1
  funext tokens
  rw [Function.comp_apply, List.foldlM_cons, hstep]
  rfl

theorem scan?_mark {state next : ReaderState} {c : Char} {rest : List Char} {token : Token}
    (hmark : Token.ofChar? c = some token) (hstep : step state token = some next) :
    scan? state (c :: rest) = scan? next rest := by
  have hfirst : Token.isBlank c = false ∧ Token.first? c rest = some (token, rest) := by
    unfold Token.ofChar? at hmark
    split at hmark <;> cases hmark <;> exact ⟨by decide, rfl⟩
  exact scan?_cons hfirst.1 hfirst.2 hstep

theorem scan?_quote {state next : ReaderState} {text : String} {rest : List Char}
    (hstep : step state (.string text) = some next) :
    scan? state (quote text rest) = scan? next rest := by
  refine scan?_cons (by decide) ?_ hstep
  rw [Token.first?, if_pos rfl, Token.string?_escaped, Option.map_some, String.ofList_toList]

def EndsNumber (cs : List Char) : Prop :=
  forall c, cs.head? = some c -> Token.isNumberChar c = false

theorem EndsNumber.cons {c : Char} (h : Token.isNumberChar c = false) (rest : List Char) :
    EndsNumber (c :: rest) := by
  intro other hother
  cases hother
  exact h

theorem scan?_number {state next : ReaderState} {number : Number} {rest : List Char}
    (hnumber : number.Readable) (hrest : EndsNumber rest)
    (hstep : step state (.number number) = some next) :
    scan? state (number.write rest) = scan? next rest := by
  rcases List.exists_cons_of_ne_nil hnumber.write_ne_nil with ⟨c, others, hwrite⟩
  have hchars : forall other, other ∈ c :: others -> Token.isNumberChar other = true :=
    fun other hother => hnumber.isNumberChar_of_mem_write (hwrite ▸ hother)
  have hnot : forall other, Token.isNumberChar other = false -> c ≠ other := by
    rintro other hother rfl
    rw [hchars c List.mem_cons_self] at hother
    cases hother
  have hblank : Token.isBlank c = false := by
    simp only [Token.isBlank, Bool.or_eq_false_iff, decide_eq_false_iff_not]
    exact ⟨⟨⟨hnot ' ' (by decide), hnot '\n' (by decide)⟩, hnot '\t' (by decide)⟩,
      hnot '\r' (by decide)⟩
  have hothers : forall other, other ∈ others -> Token.isNumberChar other = true :=
    fun other hother => hchars other (List.mem_cons_of_mem c hother)
  have htake : rest.takeWhile Token.isNumberChar = [] ∧ rest.dropWhile Token.isNumberChar = rest := by
    cases rest with
    | nil => exact ⟨rfl, rfl⟩
    | cons first rest =>
        have hfirst := hrest first rfl
        exact ⟨List.takeWhile_cons_of_neg (by simp [hfirst]),
          List.dropWhile_cons_of_neg (by simp [hfirst])⟩
  rw [Number.write_eq_append, hwrite, List.cons_append]
  refine scan?_cons hblank ?_ hstep
  rw [Token.first?, if_neg (hnot '\"' (by decide)), if_pos (hchars c List.mem_cons_self),
    List.takeWhile_append_of_pos hothers, List.dropWhile_append_of_pos hothers, htake.1, htake.2,
    List.append_nil, ← hwrite, hnumber.number?_write, Option.map_some]

/-!
## Values
-/

/-- Whether every token that can begin a value is taken as the beginning of one inside the
given containers. -/
def Expects (state : ReaderState) (outer : List Container) : Prop :=
  forall token, token ≠ .closeArray -> step state token = beginValue outer token

theorem expects_value (outer : List Container) : Expects (.value, outer) outer :=
  fun _ _ => rfl

theorem expects_firstItem (items : List Value) (outer : List Container) :
    Expects (.firstItem, .array items :: outer) (.array items :: outer) := by
  intro token htoken
  cases token <;> first | rfl | exact absurd rfl htoken

namespace Value

def ReadBack (value : Value) (outer : List Container) : Prop :=
  forall state rest, Expects state outer -> EndsNumber rest ->
    scan? state (value.write rest) = scan? (.next value, outer) rest

/-- A value with readable numbers and with at most a number of levels of arrays and objects. -/
inductive Readable : Nat -> Value -> Prop where
  | null (room : Nat) : Readable room null
  | bool (room : Nat) (value : Bool) : Readable room (bool value)
  | number (room : Nat) {number : Number} (h : number.Readable) : Readable room (.number number)
  | string (room : Nat) (text : String) : Readable room (string text)
  | array {room : Nat} {items : List Value} (h : forall item, item ∈ items -> Readable room item) :
      Readable (room + 1) (array items)
  | object {room : Nat} {members : List (String × Value)}
      (h : forall member, member ∈ members -> Readable room member.2) :
      Readable (room + 1) (object members)

theorem scan?_writeItems {state : ReaderState} {before items : List Value}
    {outer : List Container} (rest : List Char) (hne : items ≠ [])
    (hitems : forall before item, item ∈ items -> item.ReadBack (.array before :: outer))
    (hstate : Expects state (.array before :: outer)) :
    scan? state (writeItems items (']' :: rest)) =
      scan? (.next (.array (before.reverse ++ items)), outer) rest := by
  induction items generalizing state before with
  | nil => exact absurd rfl hne
  | cons item others ih =>
      have hitem := hitems before item List.mem_cons_self state
      cases others with
      | nil =>
          rw [writeItems, hitem _ hstate (.cons (by decide) rest), scan?_mark rfl rfl,
            List.reverse_cons]
      | cons other more =>
          rw [writeItems, hitem _ hstate (.cons (by decide) _), scan?_mark rfl rfl,
            ih (List.cons_ne_nil other more)
              (fun before value hvalue => hitems before value (List.mem_cons_of_mem item hvalue))
              (expects_value _),
            List.reverse_cons, List.append_assoc, List.singleton_append]
          exact List.cons_ne_nil other more

theorem scan?_writeMembers {awaiting : Awaiting} {before members : List (String × Value)}
    {outer : List Container} (rest : List Char) (hne : members ≠ [])
    (hmembers : forall before member, member ∈ members ->
      member.2.ReadBack (.member before member.1 :: outer))
    (hawaiting : awaiting = .firstName ∨ awaiting = .name) :
    scan? (awaiting, .object before :: outer) (writeMembers members ('\x7d' :: rest)) =
      scan? (.next (.object (before.reverse ++ members)), outer) rest := by
  induction members generalizing awaiting before with
  | nil => exact absurd rfl hne
  | cons member others ih =>
      have hname : step (awaiting, .object before :: outer) (.string member.1) =
          some (.colon, .member before member.1 :: outer) := by
        rcases hawaiting with rfl | rfl <;> rfl
      have hmember := hmembers before member List.mem_cons_self
      cases others with
      | nil =>
          rw [writeMembers, scan?_quote hname, scan?_mark rfl rfl,
            hmember _ _ (expects_value _) (.cons (by decide) rest), scan?_mark rfl rfl,
            List.reverse_cons]
      | cons other more =>
          rw [writeMembers, scan?_quote hname, scan?_mark rfl rfl,
            hmember _ _ (expects_value _) (.cons (by decide) _), scan?_mark rfl rfl,
            ih (List.cons_ne_nil other more)
              (fun before entry hentry => hmembers before entry (List.mem_cons_of_mem member hentry))
              (.inr rfl),
            List.reverse_cons, List.append_assoc, List.singleton_append]
          exact List.cons_ne_nil other more

theorem enter_eq {awaiting : Awaiting} {container : Container} {outer : List Container}
    {room : Nat} (h : outer.length + (room + 1) <= maxNesting) :
    enter awaiting container outer = some (awaiting, container :: outer) :=
  if_pos (by omega)

theorem Readable.readBack {room : Nat} {value : Value} (h : value.Readable room)
    {outer : List Container} (hroom : outer.length + room <= maxNesting) :
    value.ReadBack outer := by
  -- Inside all containers at once, as an item is read with its own container open.
  induction h generalizing outer with
  | null room =>
      intro state rest hstate _
      exact scan?_cons (by decide) rfl (hstate .null (by decide))
  | bool room value =>
      intro state rest hstate _
      cases value <;> exact scan?_cons (by decide) rfl (hstate (.bool _) (by decide))
  | number room hnumber =>
      intro state rest hstate hrest
      rw [write]
      exact scan?_number hnumber hrest (hstate (.number _) nofun)
  | string room text =>
      intro state rest hstate _
      rw [write]
      exact scan?_quote (hstate (.string text) nofun)
  | @array room items _ ih =>
      intro state rest hstate _
      have henter : step state .openArray = some (.firstItem, .array [] :: outer) :=
        (hstate .openArray nofun).trans (enter_eq hroom)
      rw [write, scan?_mark rfl henter]
      by_cases hne : items = []
      · subst hne
        exact scan?_mark rfl rfl
      · refine scan?_writeItems rest hne (fun before item hitem => ih item hitem ?_)
          (expects_firstItem [] outer)
        rw [List.length_cons]
        omega
  | @object room members _ ih =>
      intro state rest hstate _
      have henter : step state .openObject = some (.firstName, .object [] :: outer) :=
        (hstate .openObject nofun).trans (enter_eq hroom)
      rw [write, scan?_mark rfl henter]
      by_cases hne : members = []
      · subst hne
        exact scan?_mark rfl rfl
      · refine scan?_writeMembers rest hne (fun before member hmember => ih member hmember ?_)
          (.inl rfl)
        rw [List.length_cons]
        omega

theorem read?_compact {value : Value} (h : value.Readable maxNesting) :
    read? value.compact = some value := by
  have hnothing : EndsNumber [] := fun _ hnone => nomatch hnone
  have hread : scan? start (value.write []) = scan? (.next value, []) [] :=
    h.readBack (by decide) start [] (expects_value []) hnothing
  rw [read?_eq, compact, String.toList_ofList, hread, scan?_nil]
  rfl

end Value
end Json
end Cosigning
