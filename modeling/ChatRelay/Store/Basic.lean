import ChatRelay.Conversation.Turn
import ChatRelay.Error

/-!
# Stores

What a relay keeps between requests: lists of texts under keys, from which all texts of a key are
taken at once; conversations of users, of which the last turns can be read; and for each user the
source ids that have been answered. The operations themselves succeed, reading a conversation
apart; failures of the medium are decided by whoever carries them out.
-/

namespace ChatRelay

class KeyedLists (σ : Type) where
  append : σ → String → String → σ
  /-- All texts of a key, oldest first, and the store without them. -/
  drain : σ → String → List String × σ
  count : σ → String → Nat

class Conversations (σ : Type) where
  addTurns : σ → String → List Turn → σ
  /-- The last turns of a user, oldest first, at most as many as the limit. -/
  recent : σ → String → Nat → Except StoreError (List Turn)

class AnsweredIds (σ : Type) where
  /-- Those of the ids that have been marked for the user. -/
  seen : σ → String → List String → List String
  mark : σ → String → List String → σ

class Store (σ : Type) extends KeyedLists σ, Conversations σ, AnsweredIds σ

end ChatRelay
