import ChatRelay.Main
import ChatRelay.Proofs.Fleet.Redelivery
import ChatRelay.Proofs.Relay.Addressee
import ChatRelay.Proofs.Relay.CallingOff
import ChatRelay.Proofs.Relay.Conservation
import ChatRelay.Proofs.Relay.LostBatches
import ChatRelay.Proofs.Relay.Order
import ChatRelay.Proofs.Relay.Stranding
import ChatRelay.Provider.Credentials
import ChatRelay.Rehearsal.Command
import ChatRelay.Rehearsal.Exchange
import ChatRelay.Transport.Console
import ChatRelay.Proofs.Timer.Claiming
import ChatRelay.Proofs.Timer.Locking
import ChatRelay.Proofs.Timer.Leftovers
import ChatRelay.Proofs.Batch.Groups
import ChatRelay.Proofs.Channel.Effects
import ChatRelay.Proofs.Relay.Debounce
import ChatRelay.Proofs.Channel.Isolation
import ChatRelay.Proofs.Provider.Pairing
import ChatRelay.Proofs.Conversation.Encoding
import ChatRelay.Proofs.Store.RoundTrip
import ChatRelay.Proofs.Transport.Answers
import ChatRelay.Proofs.Relay.Acceptance
import ChatRelay.Proofs.Relay.Supersession
import ChatRelay.Proofs.Users.Separation
import ChatRelay.Proofs.Provider.Stopping
import ChatRelay.Proofs.Provider.Outcome
import ChatRelay.Proofs.Conversation.Window
import ChatRelay.Proofs.Store.Interruption
import ChatRelay.Proofs.Timer.Exhaustion
import ChatRelay.Proofs.Batch.NormalForm
import ChatRelay.Proofs.Text.Stripping
import ChatRelay.Proofs.Tool.Offset
import ChatRelay.Proofs.Provider.Messages
import ChatRelay.Proofs.Conversation.Merging
import ChatRelay.Proofs.Tool.Composition
import ChatRelay.Proofs.Settings.Reading
import ChatRelay.Proofs.Settings.Acceptance
import ChatRelay.Proofs.Settings.Startup
import ChatRelay.Proofs.Timer.Backoff
