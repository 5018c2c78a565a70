import BoardIdentity.I2c.ImageBus

/-!
# Conversations with a bus

`Bus.ask` is one read with its answer written down, and `Bus.converse` asks a list of requests in
order.  Since a bus is a value, the requests of a program together with the bus that it started from
fix all answers; a conversation that is held in two parts is one conversation (`converse_append`).
-/

namespace BoardIdentity.I2c

/-- A read that was asked for, and the bytes or the fault that the bus answered. -/
structure Exchange where
  request : ReadRequest
  answer : Except Fault (List UInt8)

namespace Exchange

/-- Whether the bus delivered bytes. -/
def succeeded (exchange : Exchange) : Bool :=
  exchange.answer.isOk

variable {request : ReadRequest}

@[simp]
theorem succeeded_ok (bytes : List UInt8) :
    (Exchange.mk request (.ok bytes)).succeeded = true := rfl

@[simp]
theorem succeeded_error (fault : Fault) :
    (Exchange.mk request (.error fault)).succeeded = false := rfl

end Exchange

namespace Bus

variable {β : Type} [Bus β]

/-- Asks one request and writes its answer down. -/
def ask (bus : β) (request : ReadRequest) : Exchange × β :=
  let (answer, bus) := Bus.read bus request.device request.offset request.length
  ({ request, answer := answer.map Vector.toList }, bus)

/-- Asks requests in order. -/
def converse (bus : β) : List ReadRequest → List Exchange × β
  | [] => ([], bus)
  | request :: requests =>
    let (exchange, bus) := ask bus request
    let (exchanges, bus) := converse bus requests
    (exchange :: exchanges, bus)

theorem converse_append (bus : β) (first second : List ReadRequest) :
    converse bus (first ++ second) =
      ((converse bus first).1 ++ (converse (converse bus first).2 second).1,
        (converse (converse bus first).2 second).2) := by
  induction first generalizing bus with
  | nil => rfl
  | cons request first ih =>
    simp only [List.cons_append, converse]
    rw [ih]

end Bus

end BoardIdentity.I2c
