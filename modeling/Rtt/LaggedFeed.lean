import Rtt.FeedBooks
import Rtt.LossyChannel

namespace Rtt.LaggedFeed

open Rtt.Machine
open Rtt.CellHistory
open Rtt.TraceOrder
open Rtt.LossyChannel
open Rtt.PublicEvent
open Rtt.MarketMessages
open Rtt.OrderBook
open Rtt.Feed
open Rtt.FeedReconnect
open Rtt.FeedBooks
open Rtt.WsClient (isReconnected)

/-- The feed processor behind its channel. -/
structure FeedRun (capacity : Nat) where
  channel : Channel WsMessage capacity
  stores : FeedStores

/-- The processor passes over the answer that it has lagged. -/
def receive (sourceId : SourceId) (stores : FeedStores) : Received WsMessage → FeedStores
  | .message message => (processMessage sourceId stores message).1
  | .lagged _ => stores
  | .pending => stores

variable {capacity : Nat}

def FeedRun.start : FeedRun capacity := { channel := .empty, stores := .new }

/-- A message is sent into the channel, or the processor takes what the channel has for it. -/
def FeedRun.step (sourceId : SourceId) (self : FeedRun capacity) :
    ChannelOp WsMessage → FeedRun capacity
  | .send message => { self with channel := (self.channel.send message).1 }
  | .recv =>
      { channel := self.channel.recv.1
        stores := receive sourceId self.stores self.channel.recv.2 }

def feedAfter (capacity : Nat) (sourceId : SourceId) (ops : List (ChannelOp WsMessage)) :
    FeedRun capacity :=
  ops.foldl (FeedRun.step sourceId) .start

/-- How the messages of a schedule have left the channel. -/
def channelLog (capacity : Nat) (ops : List (ChannelOp WsMessage)) :
    List (Departure WsMessage) :=
  departures (.empty : Channel WsMessage capacity) ops

/-- At every level the book shows what the replay of the messages sent since the
last one that replaced or cleared it shows. -/
def EqualsReplay (sourceId : SourceId) (stores : FeedStores) (messages : List WsMessage)
    (assetId : String) : Prop :=
  ∀ side price,
    (stores.orderBooks.ladder assetId side).sizeAt price =
      ((storesAfter sourceId (sinceLast (replaces assetId) messages)).orderBooks.ladder
        assetId side).sizeAt price

/-- Whenever the channel is drained a book equals the replay or there is none. -/
def NoSilentLoss (capacity : Nat) (sourceId : SourceId)
    (ops : List (ChannelOp WsMessage)) : Prop :=
  ∀ pre, pre <+: ops → (feedAfter capacity sourceId pre).channel.backlog = [] →
    ∀ assetId, EqualsReplay sourceId (feedAfter capacity sourceId pre).stores (sent pre) assetId ∨
      (feedAfter capacity sourceId pre).stores.orderBooks.books assetId = none

/-- The last message that writes a level was dropped, and the messages taken
before it have not left the same there. -/
def LostWrite (level : Level) (log : List (Departure WsMessage)) : Prop :=
  ∃ pre lost post, log = pre ++ .lost lost :: post ∧ levelEffect level lost ≠ .kept ∧
    (∀ departure ∈ post, levelEffect level departure.message = .kept) ∧
      (levelEffect level lost).left ≠ (lastEffect (levelEffect level) (taken pre)).left

/-- No message taken since the last reconnect has anything for the book. -/
def Unbuilt (assetId : String) (messages : List WsMessage) : Prop :=
  Followed (Builds assetId) (fun message => isReconnected message = true) messages

section Run

variable (sourceId : SourceId) (run : FeedRun capacity) (ops : List (ChannelOp WsMessage))

theorem channel_foldl_step :
    (ops.foldl (FeedRun.step sourceId) run).channel = exec Channel.step run.channel ops := by
  induction ops generalizing run with
  | nil => rfl
  | cons op ops ih =>
      rw [List.foldl_cons, ih, exec]
      cases op <;> rfl

theorem stores_step (op : ChannelOp WsMessage) :
    (run.step sourceId op).stores =
      exec (processMessage sourceId) run.stores (taken (run.channel.step op).2) := by
  cases op with
  | send message =>
      rw [Channel.step]
      rcases (run.channel.send message).2 with _ | dropped <;> rfl
  | recv =>
      rw [FeedRun.step, Channel.step]
      rcases run.channel.recv.2 with message | missed | _ <;> rfl

theorem stores_foldl_step :
    (ops.foldl (FeedRun.step sourceId) run).stores =
      exec (processMessage sourceId) run.stores (taken (departures run.channel ops)) := by
  induction ops generalizing run with
  | nil => rfl
  | cons op ops ih =>
      have hchannel : (run.step sourceId op).channel = (run.channel.step op).1 := by
        cases op <;> rfl
      rw [List.foldl_cons, ih, stores_step, hchannel, ← exec_append, departures, departures,
        outputs, List.flatten_cons, taken, taken, taken, List.filterMap_append]

theorem stores_feedAfter (capacity : Nat) :
    (feedAfter capacity sourceId ops).stores =
      storesAfter sourceId (taken (channelLog capacity ops)) :=
  stores_foldl_step sourceId .start ops

theorem channel_feedAfter (capacity : Nat) :
    (feedAfter capacity sourceId ops).channel =
      exec Channel.step (.empty : Channel WsMessage capacity) ops :=
  channel_foldl_step sourceId .start ops

end Run

section Lost

variable {level : Level} {log : List (Departure WsMessage)}

theorem lostWrite_concat_iff (departure : Departure WsMessage) :
    LostWrite level (log ++ [departure]) ↔
      (levelEffect level departure.message = .kept ∧ LostWrite level log) ∨
        ∃ lost, departure = .lost lost ∧ levelEffect level lost ≠ .kept ∧
          (levelEffect level lost).left ≠ (lastEffect (levelEffect level) (taken log)).left := by
  constructor
  · rintro ⟨pre, lost, post, hsplit, hwrites, hpost, hdiffers⟩
    rcases append_split hsplit with ⟨rest, rfl, rfl⟩ | ⟨rest, rfl, hlast⟩
    · refine .inl ⟨hpost departure (by simp), pre, lost, rest, rfl, hwrites, ?_, hdiffers⟩
      exact fun d hd => hpost d (List.mem_append_left _ hd)
    · rcases rest with _ | ⟨first, rest⟩
      · obtain ⟨rfl, rfl⟩ := List.cons.inj hlast
        rw [List.append_nil] at hdiffers
        exact .inr ⟨lost, rfl, hwrites, hdiffers⟩
      · exact absurd (List.cons.inj hlast).2 (by simp)
  · rintro (⟨hkept, pre, lost, post, rfl, hwrites, hpost, hdiffers⟩ |
      ⟨lost, rfl, hwrites, hdiffers⟩)
    · refine ⟨pre, lost, post ++ [departure], by simp, hwrites, ?_, hdiffers⟩
      intro d hd
      rcases List.mem_append.mp hd with hpre | hlast
      · exact hpost d hpre
      · rw [List.mem_singleton.mp hlast]
        exact hkept
    · exact ⟨log, lost, [], rfl, hwrites, by simp, hdiffers⟩

theorem lostWrite_concat_of_kept {departure : Departure WsMessage}
    (hkept : levelEffect level departure.message = .kept) :
    LostWrite level (log ++ [departure]) ↔ LostWrite level log := by
  rw [lostWrite_concat_iff, and_iff_right hkept]
  refine or_iff_left ?_
  rintro ⟨lost, rfl, hwrites, -⟩
  exact hwrites hkept

theorem not_lostWrite_concat_taken {message : WsMessage}
    (hwrites : levelEffect level message ≠ .kept) :
    ¬ LostWrite level (log ++ [.taken message]) := by
  rw [lostWrite_concat_iff]
  rintro (⟨hkept, -⟩ | ⟨lost, heq, -⟩)
  · exact hwrites hkept
  · exact absurd heq (by simp)

theorem lostWrite_concat_lost {message : WsMessage}
    (hwrites : levelEffect level message ≠ .kept) :
    LostWrite level (log ++ [.lost message]) ↔
      (levelEffect level message).left ≠ (lastEffect (levelEffect level) (taken log)).left := by
  rw [lostWrite_concat_iff, or_iff_right fun h => hwrites h.1]
  constructor
  · rintro ⟨lost, heq, -, hdiffers⟩
    obtain rfl := Departure.lost.inj heq
    exact hdiffers
  · intro hdiffers
    exact ⟨message, rfl, hwrites, hdiffers⟩

theorem taken_concat_taken (message : WsMessage) :
    taken (log ++ [.taken message]) = taken log ++ [message] := by
  rw [taken, List.filterMap_append]
  rfl

theorem taken_concat_lost (message : WsMessage) :
    taken (log ++ [.lost message]) = taken log := by
  rw [taken, List.filterMap_append]
  exact List.append_nil _

theorem left_taken_iff (level : Level) (log : List (Departure WsMessage)) :
    (lastEffect (levelEffect level) (taken log)).left =
        (lastEffect (levelEffect level) (log.map Departure.message)).left ↔
      ¬ LostWrite level log := by
  induction log using List.reverseRecOn with
  | nil =>
      refine iff_of_true rfl ?_
      rintro ⟨pre, lost, post, hsplit, -⟩
      exact absurd hsplit (by simp)
  | append_singleton log departure ih =>
      rw [List.map_append, List.map_singleton, lastEffect_concat]
      rcases eq_or_ne (levelEffect level departure.message) .kept with hkept | hwrites
      · rw [lostWrite_concat_of_kept hkept, hkept, Effect.andThen_kept]
        cases departure with
        | taken message =>
            rw [taken_concat_taken, lastEffect_concat,
              show levelEffect level message = .kept from hkept, Effect.andThen_kept]
            exact ih
        | lost message =>
            rw [taken_concat_lost]
            exact ih
      · rw [Effect.andThen_of_ne_kept _ hwrites]
        cases departure with
        | taken message =>
            refine iff_of_true ?_ (not_lostWrite_concat_taken hwrites)
            rw [taken_concat_taken, lastEffect_concat]
            exact congrArg _ (Effect.andThen_of_ne_kept _ hwrites)
        | lost message =>
            rw [taken_concat_lost, @lostWrite_concat_lost level log message hwrites, not_not,
              eq_comm]
            rfl

end Lost

/-- At a drained moment a book equals the replay when no write to one of its
levels was lost. -/
theorem equalsReplay_iff (sourceId : SourceId) {ops : List (ChannelOp WsMessage)}
    (hdrained : (feedAfter capacity sourceId ops).channel.backlog = []) (assetId : String) :
    EqualsReplay sourceId (feedAfter capacity sourceId ops).stores (sent ops) assetId ↔
      ∀ side price, ¬ LostWrite ⟨assetId, side, price⟩ (channelLog capacity ops) := by
  rw [channel_feedAfter] at hdrained
  have hsent : (channelLog capacity ops).map Departure.message = sent ops :=
    map_message_departures hdrained
  refine forall_congr' fun side => forall_congr' fun price => ?_
  rw [← left_taken_iff, hsent, stores_feedAfter]
  have htaken := sizeAt_storesAfter ⟨assetId, side, price⟩ sourceId
    (taken (channelLog capacity ops))
  have hreplay := sizeAt_storesAfter ⟨assetId, side, price⟩ sourceId
    (sinceLast (replaces assetId) (sent ops))
  rw [lastEffect_sinceLast fun message hmessage =>
    levelEffect_of_replaces ⟨assetId, side, price⟩ hmessage] at hreplay
  rw [← htaken, ← hreplay]
  rfl

/-- No loss stays silent in the books of a run exactly when, at each drained moment
and for each asset, no lost write is the last one to its level, or the book has not
been built since the last reconnect taken. -/
theorem no_silent_loss_iff (capacity : Nat) (sourceId : SourceId)
    (ops : List (ChannelOp WsMessage)) :
    NoSilentLoss capacity sourceId ops ↔
      ∀ pre, pre <+: ops → (feedAfter capacity sourceId pre).channel.backlog = [] →
        ∀ assetId, (∀ side price, ¬ LostWrite ⟨assetId, side, price⟩ (channelLog capacity pre)) ∨
          Unbuilt assetId (taken (channelLog capacity pre)) := by
  refine forall_congr' fun pre => forall_congr' fun _ => forall_congr' fun hdrained =>
    forall_congr' fun assetId => or_congr (equalsReplay_iff sourceId hdrained assetId) ?_
  rw [stores_feedAfter]
  exact books_storesAfter_eq_none_iff sourceId _

def bidLevel (price size : String) : WsMessage :=
  .priceChange
    { market := "m"
      timestamp := "2"
      priceChanges :=
        [{ assetId := "yes", price, size := some size, side := .buy, hash := none
           bestBid := none, bestAsk := none }] }

/-- A channel of one place loses the removal of the best bid. -/
def lostRemoval : List (ChannelOp WsMessage) :=
  [.send (.book
      { assetId := "yes", market := "m", timestamp := "1"
        bids := [{ price := "0.5", size := "10" }], asks := [], hash := none }),
    .recv, .send (bidLevel "0.5" "0"), .send (bidLevel "0.4" "7"), .recv, .recv]

/-- The removed bid is still the best one of the book. -/
theorem removed_bid_stays :
    ¬ ∀ ops : List (ChannelOp WsMessage), NoSilentLoss 1 publicSourceId ops := by
  intro hall
  rcases hall lostRemoval lostRemoval List.prefix_rfl rfl "yes" with hreplay | hnone
  · exact absurd (hreplay .buy "0.5") (by decide +kernel)
  · exact absurd (congrArg Option.isNone hnone) (by decide +kernel)

end Rtt.LaggedFeed
