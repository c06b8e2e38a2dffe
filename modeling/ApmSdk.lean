import ApmSdk.LabelledPath
import ApmSdk.FlagLicence
import ApmSdk.JavaArrays
import ApmSdk.StreamReframer
import ApmSdk.ReframerHistory
import ApmSdk.NativeHandle
import ApmSdk.EncoderTimestamps
import ApmSdk.RecordLoop
import ApmSdk.RecordLoopFarEnd
import ApmSdk.FramedStream
import ApmSdk.AdtsDump
import ApmSdk.WavDump
import ApmSdk.SwapQueue
import ApmSdk.BoundedFifo
import ApmSdk.SwapQueueFifo
import ApmSdk.RewindableFifo
import ApmSdk.RingBuffer
import ApmSdk.RingBufferFifo
import ApmSdk.AecMobile
import ApmSdk.AecMobileInit
import ApmSdk.AecMobileRuns
import ApmSdk.RenderTransfer
import ApmSdk.RenderTransferOrder
import ApmSdk.EarlyExit
import ApmSdk.StreamFormats
import ApmSdk.AudioBuffer
import ApmSdk.ProcessingComponent
import ApmSdk.ComponentSetup
import ApmSdk.EchoCancellation
import ApmSdk.EchoControlMobile
import ApmSdk.GainControl
import ApmSdk.CaptureEffects
import ApmSdk.AudioProcessing
import ApmSdk.ComponentFrames
import ApmSdk.Configuration
import ApmSdk.ApiCalls
import ApmSdk.Readiness
import ApmSdk.StreamDelayFlag
import ApmSdk.StreamDelayLicence
import ApmSdk.CancellerExclusion
import ApmSdk.FormatReadiness
import ApmSdk.FormatRuns
import ApmSdk.CaptureErrors
import ApmSdk.ApmProcessing
import ApmSdk.WholeFrames
import ApmSdk.CIntegers
import ApmSdk.AgcVad
import ApmSdk.AnalogAgc
import ApmSdk.AnalogAgcInvariant
import ApmSdk.AnalogAgcRuns
import ApmSdk.LegacyGainCore
import ApmSdk.CaptureLevels
import ApmSdk.CaptureLevelRuns
import ApmSdk.AecResampler
import ApmSdk.RingLevels
import ApmSdk.AecCore
import ApmSdk.AecInstance
import ApmSdk.AecAccount
import ApmSdk.AecLevels
import ApmSdk.AecFrames
import ApmSdk.AecCalls
import ApmSdk.AecBalance
import ApmSdk.AecSafety
import ApmSdk.AecGuarded
import ApmSdk.AecAssertions
import ApmSdk.PresentationClock
import ApmSdk.ByteBuffers
import ApmSdk.BufferUtils
import ApmSdk.BufferMixing
import ApmSdk.AnalogLevelLimits
import ApmSdk.SettingErrors
import ApmSdk.ConfigErrors
import ApmSdk.RingStream
import ApmSdk.AecMobileFrames
import ApmSdk.AecMobileSessions
import ApmSdk.AecMobileClean
import ApmSdk.AecMobilePairing
import ApmSdk.OutputFrames
import ApmSdk.AecOutput
import ApmSdk.AecOutputRuns
import ApmSdk.AnalogMeasures
import ApmSdk.SaturationRuns
import ApmSdk.EnergyDrift
import ApmSdk.SaturatedLevel
import ApmSdk.VirtualMic
import ApmSdk.HighPassFilter
import ApmSdk.Histogram
import ApmSdk.DelayMetrics
import ApmSdk.SquareRoot
import ApmSdk.VadExactness
import ApmSdk.GainTable
import ApmSdk.DigitalAgc
import ApmSdk.DigitalLimiter
import ApmSdk.DigitalGains
import ApmSdk.DigitalOutput
import ApmSdk.BufferViews
import ApmSdk.LinearResampling
import ApmSdk.PartitionedFilter
import ApmSdk.CheckedComputation
import ApmSdk.Normalisation
import ApmSdk.ComfortNoise
import ApmSdk.FarEnergyLevels
import ApmSdk.NearFilter
import ApmSdk.WienerGain
import ApmSdk.ChannelUpdate
import ApmSdk.NoiseUpdate
import ApmSdk.FeatureExtraction
import ApmSdk.SpeechProbability
import ApmSdk.QuantileNoise
import ApmSdk.QDomains
import ApmSdk.OverlapAdd
import ApmSdk.AudioRingBuffer
import ApmSdk.Blocker
import ApmSdk.BlockerRuns
import ApmSdk.HistogramPeaks
import ApmSdk.HistogramMoments
import ApmSdk.SuppressionFilter
import ApmSdk.DelayLine
import ApmSdk.HighBands
import ApmSdk.Transducer
import ApmSdk.SplittingFilter
import ApmSdk.SplittingBands
import ApmSdk.Convolution
import ApmSdk.ArrayCopies
import ApmSdk.SparseFIRFilter
import ApmSdk.HalfBand
import ApmSdk.Resampler
import ApmSdk.ResamplerRuns
import ApmSdk.ResamplerPush
import ApmSdk.ResamplerPasses
import ApmSdk.ResamplerModes
import ApmSdk.ResamplerStereo
import ApmSdk.ResamplerContract
import ApmSdk.StoreLoops
import ApmSdk.FrameBuffers
import ApmSdk.FrameLoops
import ApmSdk.FrameRounds
import ApmSdk.FrameContract
import ApmSdk.BitFields
import ApmSdk.BinarySpectra
import ApmSdk.DelayEstimator
import ApmSdk.DelayEstimatorSteps
import ApmSdk.DelayEstimatorDecision
import ApmSdk.DelayEstimatorRuns
import ApmSdk.DelayHistorySizes
import ApmSdk.NarrowbandResampler
import ApmSdk.VadResampling
import ApmSdk.VadMinimum
import ApmSdk.VadMinimumRuns
import ApmSdk.VadHangover
import ApmSdk.SignalEnergy
import ApmSdk.VadFilterbank
import ApmSdk.VadFilterBounds
import ApmSdk.VadFilterRuns
import ApmSdk.DigitalFollowers
import ApmSdk.StreamWindow
import ApmSdk.FarHistory
import ApmSdk.FarHistoryRuns
import ApmSdk.LinearEnergies
import ApmSdk.VadModels
import ApmSdk.VadModelUpdate
import ApmSdk.VadGaussians
import ApmSdk.VadModelBounds
import ApmSdk.VadModelLimits
import ApmSdk.AlignedFarend
import ApmSdk.SuppressionGain
import ApmSdk.VadFeatures
import ApmSdk.VadMinimumBounds
import ApmSdk.VadModelRuns
import ApmSdk.CircularCells
import ApmSdk.TransientErasure
import ApmSdk.LoudnessHistogram
import ApmSdk.BinaryRounding
import ApmSdk.CompressionSteps
import ApmSdk.AgcManagerDirect
import ApmSdk.AgcManagerRuns
import ApmSdk.EventSpacing
import ApmSdk.AgcManagerEvents
import ApmSdk.BitReversal
import ApmSdk.ButterflyNetwork
import ApmSdk.ComplexFft
import ApmSdk.ComplexFftScaling
import ApmSdk.TwiddleAccuracy
import ApmSdk.ComplexFftAccuracy
import ApmSdk.LinearCongruence
import ApmSdk.Randomization
import ApmSdk.SqrtFloor
import ApmSdk.AecMobileSpectrum
