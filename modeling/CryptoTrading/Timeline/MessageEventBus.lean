import CryptoTrading.Lib.Dict

/-!
# The event bus

Embeds `src/events/message_event_bus.py`.

Subscriptions are kept under an event type and an id; an object that is subscribed under several
types is still one object.  An event is published under the names of a set, which is given here in
some order.  `publish` returns the objects that `put` is called on, one after the other; what a
subscriber raises is caught.
-/

namespace CryptoTrading.Timeline

open CryptoTrading.Lib

/-- The subscribed objects, by event type and subscription id. -/
structure MessageEventBus where
  subscriptions : Dict String (Dict String ℕ)
  deriving DecidableEq

namespace MessageEventBus

/-- `MessageEventBus.subscribe`, with the id it draws. -/
def subscribe (bus : MessageEventBus) (eventType subscriptionId : String) (subscription : ℕ) :
    MessageEventBus :=
  ⟨bus.subscriptions.set eventType
    ((bus.subscriptions.getD eventType .empty).set subscriptionId subscription)⟩

/-- The subscribers of an event type. -/
def subscribersOf (bus : MessageEventBus) (eventType : String) : List ℕ :=
  (bus.subscriptions.getD eventType .empty).values

/-- The loop of `publish` over the subscribers, with `seen_ids`. -/
def putOnce (seen : List ℕ) : List ℕ → List ℕ
  | [] => []
  | subscription :: rest =>
    if subscription ∈ seen then putOnce seen rest
    else subscription :: putOnce (subscription :: seen) rest

/-- `MessageEventBus.publish`, under the names of an event. -/
def publish (bus : MessageEventBus) (eventTypes : List String) : List ℕ :=
  putOnce [] (eventTypes.flatMap bus.subscribersOf)

/-- An object that has been seen is not put again; any other one, once. -/
theorem count_putOnce (subscription : ℕ) (seen subscribers : List ℕ) :
    (putOnce seen subscribers).count subscription =
      if subscription ∉ seen ∧ subscription ∈ subscribers then 1 else 0 := by
  induction subscribers generalizing seen with
  | nil => simp [putOnce]
  | cons first rest ih =>
    unfold putOnce
    by_cases hseen : first ∈ seen
    · rw [if_pos hseen, ih]
      have hiff : subscription ∉ seen ∧ subscription ∈ rest ↔
          subscription ∉ seen ∧ subscription ∈ first :: rest := by
        rw [List.mem_cons]
        constructor
        · exact fun h => ⟨h.1, .inr h.2⟩
        · rintro ⟨hnot, rfl | hrest⟩
          · exact absurd hseen hnot
          · exact ⟨hnot, hrest⟩
      rw [if_congr hiff rfl rfl]
    · rw [if_neg hseen, List.count_cons, ih]
      by_cases heq : first = subscription
      · subst heq
        simp [hseen]
      · have heq' : subscription ≠ first := Ne.symm heq
        simp [heq, heq']

/-- **An object gets an event once, however many of its names it is subscribed under.** -/
theorem count_publish {bus : MessageEventBus} {eventTypes : List String} {subscription : ℕ}
    (h : ∃ eventType ∈ eventTypes, subscription ∈ bus.subscribersOf eventType) :
    (bus.publish eventTypes).count subscription = 1 := by
  rw [publish, count_putOnce, if_pos]
  exact ⟨List.not_mem_nil, List.mem_flatMap.mpr h⟩

/-- What has been subscribed is found under its type. -/
theorem mem_subscribersOf_subscribe (bus : MessageEventBus) (eventType subscriptionId : String)
    (subscription : ℕ) :
    subscription ∈ (bus.subscribe eventType subscriptionId subscription).subscribersOf
      eventType := by
  unfold subscribe subscribersOf
  rw [Dict.getD, Dict.get?_set_self, Option.getD_some]
  exact (Dict.mem_values_iff _ _).mpr ⟨subscriptionId, Dict.get?_set_self _ _ _⟩

/-- Subscribing the same object under more types takes it off none. -/
theorem mem_subscribersOf_subscribe_of_mem {bus : MessageEventBus} {eventType : String}
    {subscription : ℕ} (h : subscription ∈ bus.subscribersOf eventType)
    (other subscriptionId : String) :
    subscription ∈ (bus.subscribe other subscriptionId subscription).subscribersOf
      eventType := by
  by_cases heq : eventType = other
  · subst heq
    exact mem_subscribersOf_subscribe bus eventType subscriptionId subscription
  · unfold subscribe subscribersOf at *
    rwa [Dict.getD, Dict.get?_set_of_ne _ _ heq]

end MessageEventBus

end CryptoTrading.Timeline
