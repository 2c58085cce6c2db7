import Criteria.Json.Read
import Criteria.Proofs.Json.Token

/-!
# Documents, written and read

A document in which all numbers are whole ones of 64 bits is read back from its text.  The tokens of
the text are known from the document, and the document is read from these tokens, whatever is open
around it.

Reading keeps a list of what is open around the current place, and goes back to it when something is
closed; writing is a recursion on the document.  The two are brought together by saying what reading
does with the tokens of a document inside of any list of open ones: it goes on behind them with the
document added to the innermost.  So the recursion in the proof is that of the document, and the
list is whatever it is.

## What is here

* `Json.Exact` — the documents that are read back.
* `Json.tokens` — the tokens that are written of a document.
* `Json.Collects`, `Json.collects_of_exact` — they are found in its text.
* `Json.readValue?_tokens` — the document is read from them.
* `Json.ofText?_render` — the document is read from its text.

The text is dealt with apart from this.  Its tokens are collected from the left, with those already
read at hand, so what is said about a part of the text is said for any of them.
-/

set_option autoImplicit false

namespace Criteria
namespace Json

open Numeral (EndsNumber)

variable {rest : List Char}

/-- All numbers in the document are whole ones of 64 bits, with or without a sign, and there is
nothing in it that cannot be read. -/
inductive Exact : Json → Prop
  | null : Exact null
  | bool (b : Bool) : Exact (bool b)
  | whole {n : Int} (lower : Int64.minValue.toInt ≤ n) (upper : n < UInt64.size) : Exact (whole n)
  | text (s : String) : Exact (text s)
  | array {items : List Json} (inside : ∀ j ∈ items, Exact j) : Exact (array items)
  | object {members : List (String × Json)} (inside : ∀ m ∈ members, Exact m.2) :
    Exact (object members)

/-! ## Tokens

The tokens behind the first item of a list are a comma and the tokens of an item, again and again,
and then the bracket; for members there is a name in front of each. -/

mutual

/-- The tokens that are written of a document. -/
def tokens : Json → List Token
  | text s => [.string (some s)]
  | array [] => [.openArray, .closeArray]
  | array (j :: js) => .openArray :: (tokens j ++ itemsBehind js)
  | object [] => [.openObject, .closeObject]
  | object ((name, j) :: ms) =>
    .openObject :: .string (some name) :: .colon :: (tokens j ++ membersBehind ms)
  | j => [.other j]

/-- The tokens behind an item of an array, up to the end of the array. -/
def itemsBehind : List Json → List Token
  | [] => [.closeArray]
  | j :: js => .comma :: (tokens j ++ itemsBehind js)

/-- The tokens behind a member of an object, up to the end of the object. -/
def membersBehind : List (String × Json) → List Token
  | [] => [.closeObject]
  | (name, j) :: ms =>
    .comma :: .string (some name) :: .colon :: (tokens j ++ membersBehind ms)

end

/-! ## From the text to the tokens

The text is written with commas in between, which is a list of texts joined; for reading it is
better to have the comma in front of each item but the first. -/

/-- What stands behind the first one of some texts up to the closing sign, and beyond. -/
def textBehind (texts : List String) (close : Char) (rest : List Char) : List Char :=
  (texts.flatMap fun t => ',' :: t.toList) ++ close :: rest

/-- Behind the last item the bracket closes. -/
@[simp] theorem textBehind_nil (close : Char) (rest : List Char) :
    textBehind [] close rest = close :: rest :=
  rfl

@[simp] theorem textBehind_cons (t : String) (ts : List String) (close : Char) (rest : List Char) :
    textBehind (t :: ts) close rest = ',' :: (t.toList ++ textBehind ts close rest) := by
  simp [textBehind]

/-- A list of texts joined by commas is the first one and the text behind it. -/
theorem toList_intercalate_append (t : String) (ts : List String) (close : Char)
    (rest : List Char) :
    (",".intercalate (t :: ts)).toList ++ close :: rest = t.toList ++ textBehind ts close rest := by
  induction ts generalizing t with
  | nil => simp
  | cons u us ih =>
    rw [String.intercalate_cons_cons, String.toList_append, List.append_assoc, ih,
      String.toList_append, List.append_assoc, textBehind_cons]
    rfl

/-- The closing sign ends a number, and so does the comma in front of another text. -/
theorem endsNumber_textBehind {close : Char} (h : close = ']' ∨ close = '\x7d')
    (texts : List String) (rest : List Char) : EndsNumber (textBehind texts close rest) := by
  cases texts with
  | nil => rcases h with rfl | rfl <;> simp [EndsNumber]
  | cons t ts => simp [EndsNumber]

/-- The tokens of the document are found in its text, in front of anything that does not go on with
a number. -/
def Collects (j : Json) : Prop :=
  ∀ (read : List Token) (rest : List Char), EndsNumber rest →
    Token.collect read ((render j).toList ++ rest) =
      Token.collect ((tokens j).reverse ++ read) rest

/-- The tokens of the items behind the first one. -/
theorem collect_items {js : List Json} (h : ∀ j ∈ js, Collects j) (read : List Token)
    (rest : List Char) :
    Token.collect read (textBehind (renderItems js) ']' rest) =
      Token.collect ((itemsBehind js).reverse ++ read) rest := by
  induction js generalizing read with
  | nil =>
    rw [renderItems, textBehind_nil, Token.collect]
    rfl
  | cons j js ih =>
    have hjs := ih fun k hk => h k (List.mem_cons_of_mem _ hk)
    rw [renderItems, textBehind_cons, Token.collect,
      h j List.mem_cons_self _ _ (endsNumber_textBehind (.inl rfl) _ _), hjs, itemsBehind]
    simp

/-- The tokens of a member: its name, the colon, and the document. -/
theorem collect_member {j : Json} (h : Collects j) (name : String) (read : List Token)
    (hrest : EndsNumber rest) :
    Token.collect read ((renderText name ++ ":" ++ render j).toList ++ rest) =
      Token.collect ((tokens j).reverse ++ .colon :: .string (some name) :: read) rest := by
  rw [String.toList_append, String.toList_append, List.append_assoc, List.append_assoc,
    Token.collect_text]
  change Token.collect _ (':' :: ((render j).toList ++ rest)) = _
  rw [Token.collect, h _ _ hrest]

/-- The tokens of the members behind the first one. -/
theorem collect_members {ms : List (String × Json)} (h : ∀ m ∈ ms, Collects m.2)
    (read : List Token) (rest : List Char) :
    Token.collect read (textBehind (renderMembers ms) '\x7d' rest) =
      Token.collect ((membersBehind ms).reverse ++ read) rest := by
  induction ms generalizing read with
  | nil =>
    rw [renderMembers, textBehind_nil, Token.collect]
    rfl
  | cons m ms ih =>
    obtain ⟨name, j⟩ := m
    have hj := h (name, j) List.mem_cons_self
    have hms := ih fun k hk => h k (List.mem_cons_of_mem _ hk)
    rw [renderMembers, textBehind_cons, Token.collect,
      collect_member hj _ _ (endsNumber_textBehind (.inr rfl) _ _), hms, membersBehind]
    simp

/-- The tokens of an array, if those of its items are found. -/
theorem collects_array {items : List Json} (h : ∀ j ∈ items, Collects j) :
    Collects (array items) := by
  intro read rest _
  have htext : (render (array items)).toList ++ rest =
      '[' :: ((",".intercalate (renderItems items)).toList ++ ']' :: rest) := by
    simp [render]
  rw [htext, Token.collect]
  cases items with
  | nil =>
    change Token.collect _ (']' :: rest) = _
    rw [Token.collect]
    rfl
  | cons j js =>
    have hjs := collect_items fun k hk => h k (List.mem_cons_of_mem _ hk)
    rw [renderItems, toList_intercalate_append,
      h j List.mem_cons_self _ _ (endsNumber_textBehind (.inl rfl) _ _), hjs, tokens]
    simp

/-- The tokens of an object, if those of its members are found. -/
theorem collects_object {members : List (String × Json)} (h : ∀ m ∈ members, Collects m.2) :
    Collects (object members) := by
  intro read rest _
  have htext : (render (object members)).toList ++ rest =
      '\x7b' :: ((",".intercalate (renderMembers members)).toList ++ '\x7d' :: rest) := by
    simp [render]
  rw [htext, Token.collect]
  cases members with
  | nil =>
    change Token.collect _ ('\x7d' :: rest) = _
    rw [Token.collect]
    rfl
  | cons m ms =>
    obtain ⟨name, j⟩ := m
    have hj := h (name, j) List.mem_cons_self
    have hms := collect_members fun k hk => h k (List.mem_cons_of_mem _ hk)
    rw [renderMembers, toList_intercalate_append,
      collect_member hj _ _ (endsNumber_textBehind (.inr rfl) _ _), hms, tokens]
    simp

/-- The tokens of a document are found in its text. -/
theorem collects_of_exact {j : Json} (h : Exact j) : Collects j := by
  induction h with
  | null =>
    intro read rest _
    change Token.collect read ('n' :: 'u' :: 'l' :: 'l' :: rest) = _
    rw [Token.collect]
    rfl
  | bool b =>
    intro read rest _
    cases b with
    | false =>
      change Token.collect read ('f' :: 'a' :: 'l' :: 's' :: 'e' :: rest) = _
      rw [Token.collect]
      rfl
    | true =>
      change Token.collect read ('t' :: 'r' :: 'u' :: 'e' :: rest) = _
      rw [Token.collect]
      rfl
  | whole lower upper =>
    intro read rest hrest
    rw [render, String.toList_ofList, Token.collect_whole read lower upper hrest]
    rfl
  | text s =>
    intro read rest _
    rw [render, Token.collect_text]
    rfl
  | array _ ih => exact collects_array ih
  | object _ ih => exact collects_object ih

/-! ## From the tokens to the document -/

theorem Open.member_some (members : List (String × Json)) (name : String) (j : Json) :
    Open.member (some members) (some name) j = some ((name, j) :: members) :=
  rfl

/-- No document starts with the end of an array. -/
theorem tokens_ne_closeArray (j : Json) (ts us : List Token) :
    tokens j ++ ts ≠ .closeArray :: us := by
  fun_cases tokens j <;> simp

/-- An item of an array does not look like the name of a member. -/
theorem tokens_ne_name (j : Json) (js : List Json) (ts : List Token) (name : Option String)
    (us : List Token) : tokens j ++ (itemsBehind js ++ ts) ≠ .string name :: .colon :: us := by
  fun_cases tokens j <;> cases js <;> simp [itemsBehind]

-- The recursion is that of the document.  What is open around it grows on the way inside and is any
-- list in every statement.
mutual

/-- A document is read from its tokens, whatever is open around it. -/
theorem readValue?_tokens : (j : Json) → (stack : List Open) → (ts : List Token) →
    readValue? stack (tokens j ++ ts) = readBehind? stack j ts
  | null, _, _ | bool _, _, _ | whole _, _, _ | decimal _, _, _ | unreadable, _, _ => rfl
  | text _, _, _ => rfl
  | array [], _, _ => rfl
  | array (j :: js), stack, ts => by
    have hj := readValue?_tokens j (.array [] :: stack) (itemsBehind js ++ ts)
    rw [tokens, List.cons_append, List.append_assoc, readValue?, hj, readBehind?_items js]
    · rfl
    · exact tokens_ne_closeArray j _
  | object [], _, _ => rfl
  | object ((name, j) :: ms), stack, ts => by
    have hj := readValue?_tokens j (.object (some []) (some name) :: stack)
      (membersBehind ms ++ ts)
    rw [tokens, List.cons_append, List.cons_append, List.cons_append, List.append_assoc,
      readValue?, hj, readBehind?_members ms]
    rfl

/-- The items of an array are read one behind the other, and then the array is closed. -/
theorem readBehind?_items : (js : List Json) → (items : List Json) → (stack : List Open) →
    (j : Json) → (ts : List Token) →
    readBehind? (.array items :: stack) j (itemsBehind js ++ ts) =
      readBehind? stack (.array (items.reverse ++ j :: js)) ts
  | [], items, stack, j, ts => by
    rw [itemsBehind, List.singleton_append, readBehind?, List.reverse_cons]
  | k :: js, items, stack, j, ts => by
    have hk := readValue?_tokens k (.array (j :: items) :: stack) (itemsBehind js ++ ts)
    rw [itemsBehind, List.cons_append, List.append_assoc, readBehind?]
    · rw [hk, readBehind?_items js, List.reverse_cons, List.append_assoc, List.singleton_append]
    · exact tokens_ne_name k js ts

/-- The members of an object are read one behind the other, and then the object is closed. -/
theorem readBehind?_members : (ms members : List (String × Json)) → (name : String) →
    (stack : List Open) → (j : Json) → (ts : List Token) →
    readBehind? (.object (some members) (some name) :: stack) j (membersBehind ms ++ ts) =
      readBehind? stack (.object (members.reverse ++ (name, j) :: ms)) ts
  | [], members, name, stack, j, ts => by
    rw [membersBehind, List.singleton_append, readBehind?, Open.member_some, ← List.reverse_cons]
    rfl
  | (next, k) :: ms, members, name, stack, j, ts => by
    have hk := readValue?_tokens k (.object (some ((name, j) :: members)) (some next) :: stack)
      (membersBehind ms ++ ts)
    rw [membersBehind, List.cons_append, List.cons_append, List.cons_append, List.append_assoc,
      readBehind?, Open.member_some, hk, readBehind?_members ms, List.reverse_cons,
      List.append_assoc, List.singleton_append]

end

/-- **A document without decimal numbers is read back from its text.** -/
theorem ofText?_render {j : Json} (h : Exact j) : ofText? (render j) = some j := by
  have htokens := collects_of_exact h [] [] (Grammar.stops_nil _)
  have hvalue := readValue?_tokens j [] []
  rw [List.append_nil, List.append_nil, Token.collect, List.reverse_reverse] at htokens
  rw [List.append_nil] at hvalue
  rw [ofText?, Token.ofText?, htokens, Option.bind_some, hvalue]
  rfl

end Json
end Criteria
