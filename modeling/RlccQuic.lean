import RlccQuic.CongestionControl.Signal
import RlccQuic.Mininet.Experiments
import RlccQuic.Transport.Frames
import RlccQuic.Transport.Amplification
import RlccQuic.Transport.Adverts
import RlccQuic.Transport.AckFrame
import RlccQuic.Transport.CryptoStream
import RlccQuic.Transport.Token
import RlccQuic.Transport.Discard
import RlccQuic.Transport.NewConnId
import RlccQuic.Transport.StreamLimits
import RlccQuic.Transport.EarlyReject
import RlccQuic.Transport.Replay
import RlccQuic.Transport.RttRuns
import RlccQuic.Common.Vint
import RlccQuic.Common.RingMemRuns
import RlccQuic.Http3.DecoderMem
import RlccQuic.Transport.RttEstimate
import RlccQuic.Transport.InvalidAcks
import RlccQuic.CongestionControl.LostInterval
import RlccQuic.Transport.PacketNumber
import RlccQuic.Transport.KeyStart
import RlccQuic.Transport.HeaderProtection
import RlccQuic.Transport.PacingTimer
import RlccQuic.Http3.Settings
import RlccQuic.Http3.RequestHeaders
import RlccQuic.Transport.CwndRespect
