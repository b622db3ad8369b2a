import Courier.Provider.Adapter
import Courier.Provider.Registry

/-!
# Hosted providers

The providers that the service is configured to host. Each has one adapter under
its key, which both sends and receives.
-/

namespace Courier
namespace Provider

def Registration.full (h : Handle) : Registration Handle :=
  { key := h.reported, sender := some h, receiver := some h }

/-- Registrations for the configured keys, with places in order. -/
def hostedRegistrations (keys : List String) : List (Registration Handle) :=
  keys.zipIdx.map fun (key, place) => .full ⟨key, place⟩

def hosted (keys : List String) : Except RegistryError (Registry Handle) :=
  Registry.build Handle.reported (hostedRegistrations keys)

end Provider
end Courier
