import ChatRelay.Channel.Basic
import ChatRelay.Channel.Stock
import ChatRelay.Settings

/-!
# Stock channels

The assistant's channel recalls the conversation and tells the time; the channel for scheduled
tasks announces the task instead. Both send replies through the same outputs.
-/

namespace ChatRelay.Preset

/-- What the stock channels are put together from. -/
structure Parts where
  toolFactories : List ToolFactory
  outputs : List Output
  mentionName : Option String

def assistantId : String := "assistant"
def scheduledId : String := "scheduled"

def assistantTransformers (parts : Parts) : Except ConfigError (List Transformer) :=
  match parts.mentionName with
  | some name => do return [.trim, ← Transformer.mentionStrip name]
  | none => .ok [.trim]

def assistant (settings : Settings) (parts : Parts) : Except ConfigError Channel := do
  let transformers ← assistantTransformers parts
  ChannelDraft.build {
    id := assistantId
    systemPrompt := settings.systemPrompt
    transformers
    enrichers := [.history settings.historyLimit, .clock]
    toolFactories := parts.toolFactories
    outputs := parts.outputs }

def scheduled (settings : Settings) (parts : Parts) : Except ConfigError Channel :=
  ChannelDraft.build {
    id := scheduledId
    systemPrompt := settings.systemPrompt
    transformers := [.trim, .scheduledTask]
    enrichers := [.clock]
    toolFactories := parts.toolFactories
    outputs := parts.outputs }

/-- Register the one channel. A channel that is refused leaves the registry as it was. -/
def registerOne (registry : ChannelRegistry) (channel : Except ConfigError Channel) :
    ChannelRegistry × Except ConfigError Unit :=
  match channel.bind registry.register with
  | .ok registry => (registry, .ok ())
  | .error cause => (registry, .error cause)

/-- Register both stock channels; the second only if the first was accepted. -/
def registerBoth (registry : ChannelRegistry) (settings : Settings) (parts : Parts) :
    ChannelRegistry × Except ConfigError Unit :=
  match registerOne registry (assistant settings parts) with
  | (registry, .ok ()) => registerOne registry (scheduled settings parts)
  | refused => refused

end ChatRelay.Preset
