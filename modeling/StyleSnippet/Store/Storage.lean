import StyleSnippet.Store.Error

/-!
# Stores of snippets

A store keeps texts by name. A name that is not there is no error: it reads as the empty text,
and there is nothing to delete or rename. An operation that changes a store answers with the
store after it, also when it fails.
-/

set_option autoImplicit false

namespace StyleSnippet

/-- What an editing session needs of the place where snippets are kept. -/
class Storage (σ : Type) where
  /-- The names of the snippets, sorted. -/
  list : σ → Except StoreError (List Text)
  /-- The text under a name, which is empty if the name is not there. -/
  read : (name : Text) → σ → Except StoreError Text
  /-- Puts a text under a name. -/
  write : (name content : Text) → σ → Except StoreError Unit × σ
  /-- Removes a name. -/
  delete : (name : Text) → σ → Except StoreError Unit × σ
  /-- Moves the text under one name to another. -/
  rename : (source target : Text) → σ → Except StoreError Unit × σ

end StyleSnippet
