import Stakan.ClientLib.OrderBookClient
import Stakan.Library.History
import Stakan.Library.Transducer

namespace Stakan.ClientLib.OrderBookClient
open History TcpClient

/-- What goes out over the network: a new connection, or the line of a request. -/
inductive Wire
  | opened
  | line (request : Request)

/-- What an event puts on the wire. A request is written if there is a
connection and the write does not throw. -/
def wires (s : OrderBookClient) : Event → List Wire
  | .client .established _ => [.opened]
  | .request request none => if s.client.connected then [.line request] else []
  | _ => []

def wiredStep (s : OrderBookClient) (event : Event) : Option (OrderBookClient × List Wire) :=
  (step s event).map fun after => (after, s.wires event)

/-- The ticker has been subscribed to, over whatever connection, and has not been unsubscribed from since. -/
def Held (ticker : List UInt8) : List Wire → Prop :=
  Since (fun _ wire => wire = .line (.subscribe ticker)) fun wire => wire ≠ .line (.unsubscribe ticker)

theorem held_snoc {ticker : List UInt8} {sent : List Wire} {wire : Wire} : Held ticker (sent ++ [wire]) ↔
    wire = .line (.subscribe ticker) ∨ wire ≠ .line (.unsubscribe ticker) ∧ Held ticker sent := since_snoc

theorem perform_client_tickers (s : OrderBookClient) (event : TcpClient.Lifecycle.Event) (what : List UInt8) :
    (s.perform (.client event what)).tickers = s.tickers := by
  cases event with
  | connect | disconnect | spawn | report =>
    simp only [perform]
    split <;> rfl
  | _ => rfl

/-- The tickers are those that the wire tells of. -/
def Accounted (s : OrderBookClient) (sent : List Wire) : Prop := ∀ ticker, ticker ∈ s.tickers ↔ Held ticker sent

theorem Accounted.step {s after : OrderBookClient} {event : Event} {sent new : List Wire} (accounted : s.Accounted sent)
    (moved : wiredStep s event = some (after, new)) : after.Accounted (sent ++ new) := by
  obtain ⟨next, performed, same⟩ := Option.map_eq_some_iff.mp moved
  obtain ⟨rfl, rfl⟩ := Prod.mk.inj same
  obtain ⟨_, _, rfl⟩ := step_eq_some.mp performed
  intro ticker
  cases event with
  | client event what =>
    rw [perform_client_tickers, accounted ticker]
    cases event with
    | established => simp [wires, held_snoc]
    | _ => simp [wires]
  | request request what =>
    by_cases written : s.client.connected = true ∧ what = none
    · obtain ⟨on, rfl⟩ := written
      have wrote : s.write none = (s, true) := by rw [write, if_pos on]
      cases request with
      | subscribe symbol =>
        simp only [perform, wrote, subscribe, if_true, wires, on, held_snoc, Finset.mem_insert, accounted ticker]
        simp [eq_comm]
      | unsubscribe symbol =>
        simp only [perform, wrote, unsubscribe, if_true, wires, on, held_snoc, Finset.mem_erase, accounted ticker]
        simp [eq_comm]
    · have refused : (s.write what).2 = false ∧ (s.write what).1.tickers = s.tickers ∧
          s.wires (.request request what) = [] := by
        unfold write
        by_cases on : s.client.connected = true
        · cases what with
          | none => exact absurd ⟨on, rfl⟩ written
          | some what => exact ⟨by rw [if_pos on], by rw [if_pos on]; rfl, rfl⟩
        · refine ⟨by rw [if_neg on], by rw [if_neg on], ?_⟩
          cases what with
          | none => exact if_neg on
          | some what => rfl
      obtain ⟨returned, kept, silent⟩ := refused
      rw [silent, List.append_nil, ← accounted ticker, ← kept]
      cases request with
      | subscribe symbol => rw [perform, subscribe, returned]; rfl
      | unsubscribe symbol => rw [perform, unsubscribe, returned]; rfl

/-- Whatever happens to the connection, the tickers of a client are those
whose last request on the wire was a subscription. -/
theorem run_tickers (events : List Event) (last : OrderBookClient) (sent : List Wire)
    (ran : Transducer.run wiredStep {} events = some (last, sent)) (ticker : List UInt8) :
    ticker ∈ last.tickers ↔ Held ticker sent := by
  have initial : Accounted {} [] := fun ticker =>
    ⟨fun member => by contradiction, fun held => absurd held (not_since_nil _ _)⟩
  exact Transducer.run_history (fun _ _ _ _ _ accounted moved => Accounted.step accounted moved) ran initial ticker

/-- A connection on which a ticker is subscribed to goes down and another takes its place. -/
def reconnected : List Event :=
  [.client .connect [], .client .established [], .client .announce [], .client .spawn [],
    .request (.subscribe [65]) none, .client .disconnect [], .client .clearFlag [], .client .check [],
    .client .close [], .client .join [], .client .report [], .client .connect [], .client .established []]

/-- A ticker outlives its connection: nothing has been sent over the second one. -/
theorem run_tickers_reconnected : ∃ last sent, Transducer.run wiredStep {} reconnected = some (last, sent) ∧
    sent.getLast? = some .opened ∧ ([65] ∈ last.tickers ↔ Held [65] sent) ∧ [65] ∈ last.tickers := by
  obtain ⟨last, sent, ran, opened, member⟩ : ∃ last sent, Transducer.run wiredStep {} reconnected = some (last, sent) ∧
      sent.getLast? = some .opened ∧ [65] ∈ last.tickers := ⟨_, _, rfl, rfl, by decide⟩
  exact ⟨last, sent, ran, opened, run_tickers reconnected last sent ran [65], member⟩

end Stakan.ClientLib.OrderBookClient
