import Symbology.Json.Reader
import Symbology.Proofs.Json.Scanning

set_option autoImplicit false

/-! # The tokens of a value build its document

The builder holds the arrays and objects that are open, so the induction over a value is over the
builder in any such state. Behind the tokens of the value it has the document
(`Script.build_tokens`), and a text is read as the document of what it spells
(`Script.read?_chars`). -/

namespace Symbology.Json.Script

mutual

/-- The document that is read from the text of a spelled value. -/
def document : Script → Document
  | .null => .null
  | .bool b => .bool b
  | .number n _ _ => .number (Number.ofNumeral? n)
  | .string s => .string (some s)
  | .array items => .array (itemDocuments items)
  | .object members => .object (memberDocuments members)

/-- The documents of spelled items. -/
def itemDocuments : List Script → List Document
  | [] => []
  | script :: rest => document script :: itemDocuments rest

/-- The keys and the documents of spelled members. -/
def memberDocuments : List (String × Script) → List (Option String × Document)
  | [] => []
  | (key, script) :: rest => (some key, document script) :: memberDocuments rest

end

/-- The text of a value does not begin with the end of an array. -/
theorem exists_head_tokens (script : Script) :
    ∃ token rest, script.tokens = token :: rest ∧ token ≠ .closeArray := by
  match script with
  | .null | .bool _ | .number .. | .string _ | .array [] | .array (_ :: _) | .object []
  | .object ((_, _) :: _) => exact ⟨_, _, rfl, by simp⟩

/-- The first item of an array is built as any value. -/
theorem accept_firstItem {token : Token} (h : token ≠ .closeArray) (frames : List Builder.Frame) :
    Builder.accept (.firstItem frames) token =
      Builder.accept (.value (.array [] :: frames)) token := by
  cases token <;> first | contradiction | rfl

mutual

/-- The tokens of a value build its document, in whatever it stands. -/
theorem build_tokens : ∀ (script : Script) (frames : List Builder.Frame),
    script.tokens.foldlM Builder.accept (.value frames) = some (.complete frames script.document)
  | .null, frames | .bool _, frames | .number .., frames | .string _, frames => rfl
  | .array [], frames => rfl
  | .array (script :: rest), frames => by
    have hopen : Builder.accept (.value frames) .openArray = some (.firstItem frames) := rfl
    have hscript := build_tokens script (.array [] :: frames)
    obtain ⟨token, following, htokens, hne⟩ := exists_head_tokens script
    rw [htokens, List.foldlM_cons, ← accept_firstItem hne, ← List.foldlM_cons, ← htokens] at hscript
    rw [tokens, List.foldlM_cons_of_some hopen, List.foldlM_append_of_some hscript,
      build_itemsTokens]
    rfl
  | .object [], frames => rfl
  | .object ((key, script) :: rest), frames => by
    have hopen : Builder.accept (.value frames) .openObject = some (.firstKey frames) := rfl
    have hkey : Builder.accept (.firstKey frames) (.string (some key)) =
        some (.colon frames [] (some key)) := rfl
    have hcolon : Builder.accept (.colon frames [] (some key)) .colon =
        some (.value (.object [] (some key) :: frames)) := rfl
    rw [tokens, List.foldlM_cons_of_some hopen, List.foldlM_cons_of_some hkey,
      List.foldlM_cons_of_some hcolon, List.foldlM_append_of_some (build_tokens script _),
      build_membersTokens]
    rfl

/-- The items behind the first one, and the end of the array. -/
theorem build_itemsTokens : ∀ (items : List Script) (before : List Document) (document : Document)
    (frames : List Builder.Frame),
    (itemsTokens items).foldlM Builder.accept (.complete (.array before :: frames) document) =
      some (.complete frames (.array ((document :: before).reverse ++ itemDocuments items)))
  | [], before, document, frames => by
    rw [itemDocuments, List.append_nil]
    rfl
  | script :: rest, before, document, frames => by
    have hcomma : Builder.accept (.complete (.array before :: frames) document) .comma =
        some (.value (.array (document :: before) :: frames)) := rfl
    rw [itemsTokens, List.foldlM_cons_of_some hcomma,
      List.foldlM_append_of_some (build_tokens script _), build_itemsTokens]
    simp [itemDocuments]

/-- The members behind the first one, and the end of the object. -/
theorem build_membersTokens : ∀ (members : List (String × Script))
    (before : List (Option String × Document)) (key : Option String) (document : Document)
    (frames : List Builder.Frame),
    (membersTokens members).foldlM Builder.accept
        (.complete (.object before key :: frames) document) =
      some (.complete frames
        (.object (((key, document) :: before).reverse ++ memberDocuments members)))
  | [], before, key, document, frames => by
    rw [memberDocuments, List.append_nil]
    rfl
  | (name, script) :: rest, before, key, document, frames => by
    let read := (key, document) :: before
    have hcomma : Builder.accept (.complete (.object before key :: frames) document) .comma =
        some (.key frames read) := rfl
    have hkey : Builder.accept (.key frames read) (.string (some name)) =
        some (.colon frames read (some name)) := rfl
    have hcolon : Builder.accept (.colon frames read (some name)) .colon =
        some (.value (.object read (some name) :: frames)) := rfl
    rw [membersTokens, List.foldlM_cons_of_some hcomma, List.foldlM_cons_of_some hkey,
      List.foldlM_cons_of_some hcolon, List.foldlM_append_of_some (build_tokens script _),
      build_membersTokens]
    simp [memberDocuments, read]

end

/-- **A text is read as the document of what it spells.** -/
theorem read?_chars (script : Script) :
    Document.read? (String.ofList script.chars) = some script.document := by
  rw [Document.read?, String.toList_ofList, tokens?_chars, Option.bind_some, Document.ofTokens?,
    build_tokens]
  rfl

end Symbology.Json.Script
