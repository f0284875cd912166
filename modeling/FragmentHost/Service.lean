/-!
# Services

A service is an object that was made elsewhere and is only asked things. Nothing is known of it but its
answers, and these may depend on everything that it was asked before.
-/

namespace FragmentHost

/-- What a service answers, given the earlier requests in order and the request itself. -/
abbrev Answers (α β : Type) := List α → α → β

/-- A service with the requests that it got so far. -/
structure Service (α β : Type) where
  answers : Answers α β
  asked : List α := []

namespace Service

variable {α β : Type}

/-- The answer to one more request, and the service afterwards. -/
def ask (s : Service α β) (request : α) : β × Service α β :=
  (s.answers s.asked request, { s with asked := s.asked ++ [request] })

/-- The answer of the service with a number, and the services afterwards. -/
def askAt (services : List (Service α β)) (number : Nat) (request : α) :
    Option (β × List (Service α β)) :=
  services[number]?.map fun s => ((s.ask request).1, services.set number (s.ask request).2)

@[simp] theorem answers_ask (s : Service α β) (request : α) : (s.ask request).2.answers = s.answers := rfl

@[simp] theorem asked_ask (s : Service α β) (request : α) :
    (s.ask request).2.asked = s.asked ++ [request] := rfl

end Service

end FragmentHost
