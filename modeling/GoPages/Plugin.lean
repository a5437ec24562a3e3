import GoPages.Owner

/-!
# Plugins

A `Plugin` adds parameters and results to handlers. It sees a handler right after the handler has
been attached to its owner and before any plugin has added something to it, and it can change
nothing else. The additions of several plugins stand in the order of the plugins.
-/

namespace GoPages

/-- What a plugin sees of a handler of requests: the owner with the handler, and the handler. -/
structure HandlerContext where
  owner : Owner
  handler : Handler

/-- What a plugin sees of a handler of events: the owner with the handler, and the handler. -/
structure EventHandlerContext where
  owner : Owner
  handler : EventHandler

/-- Additions to handlers. -/
structure Plugin where
  getInputs : HandlerContext → List Slot
  getOutputs : HandlerContext → List Slot
  actionInputs : HandlerContext → List Slot
  actionOutputs : HandlerContext → List Slot
  eventHandlerInputs : EventHandlerContext → List Slot

namespace Plugin

/-- The plugin that adds nothing. -/
def idle : Plugin where
  getInputs _ := []
  getOutputs _ := []
  actionInputs _ := []
  actionOutputs _ := []
  eventHandlerInputs _ := []

/-- The parameters that a plugin adds to a handler of requests. -/
def inputs (p : Plugin) (c : HandlerContext) : List Slot :=
  if c.handler.method = .get then p.getInputs c else p.actionInputs c

/-- The results that a plugin adds to a handler of requests. -/
def outputs (p : Plugin) (c : HandlerContext) : List Slot :=
  if c.handler.method = .get then p.getOutputs c else p.actionOutputs c

end Plugin

/-- The handler in its context with the additions of plugins. -/
def HandlerContext.extended (plugins : List Plugin) (c : HandlerContext) : Handler :=
  { c.handler with
    pluginInputs := c.handler.pluginInputs ++ plugins.flatMap (·.inputs c)
    pluginOutputs := c.handler.pluginOutputs ++ plugins.flatMap (·.outputs c) }

/-- The event handler in its context with the additions of plugins. -/
def EventHandlerContext.extended (plugins : List Plugin) (c : EventHandlerContext) : EventHandler :=
  { c.handler with
    pluginInputs := c.handler.pluginInputs ++ plugins.flatMap (·.eventHandlerInputs c) }

end GoPages
