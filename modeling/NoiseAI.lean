import NoiseAI.Spec.RingFifo
import NoiseAI.Spec.EngineDelivery
import NoiseAI.Spec.EngineLatency
import NoiseAI.Spec.ShmName
import NoiseAI.Spec.Connection
import NoiseAI.Spec.Wedge
import NoiseAI.Spec.Clients
import NoiseAI.Spec.Attach
import NoiseAI.Spec.ShmDelivery
import NoiseAI.Spec.DeviceSelection
import NoiseAI.Spec.CapturePipeline
import NoiseAI.Spec.CaptureLifeCycle
import NoiseAI.Spec.DeviceFollows
import NoiseAI.Spec.EngineInvariant
import NoiseAI.Spec.EngineReset
import NoiseAI.Spec.FailedLoad
import NoiseAI.Spec.Overload
import NoiseAI.Spec.EngineLifeCycle
import NoiseAI.Spec.ModeSwitch
import NoiseAI.Spec.ChannelLayout
import NoiseAI.Spec.AttenuationLimit
import NoiseAI.Spec.RingQueue
import NoiseAI.Spec.RingUsable
import NoiseAI.Spec.RingLinear
import NoiseAI.Spec.PipelineDelivery
import NoiseAI.Spec.ShmSilence
import NoiseAI.Spec.WaitFree
import NoiseAI.Spec.OwnMicrophone
import NoiseAI.Spec.HostStream
import NoiseAI.Spec.CallbackBounds
import NoiseAI.Spec.HostChoices
