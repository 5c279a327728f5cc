import OtaUpdater.Lib.Crc
import OtaUpdater.Lib.Mealy
import OtaUpdater.Lib.Overlay
import OtaUpdater.Lib.Paged
import OtaUpdater.Lib.Bytes
import OtaUpdater.Wire
import OtaUpdater.Device.Proto
import OtaUpdater.Host.Frame
import OtaUpdater.Device.Update
import OtaUpdater.Lib.State
import OtaUpdater.Lib.Run
import OtaUpdater.Lib.Burst
import OtaUpdater.Lib.Framing
import OtaUpdater.Lib.Parity
import OtaUpdater.Lib.Retry
import OtaUpdater.Lib.Repeat
import OtaUpdater.Device.Refine
import OtaUpdater.Device.Flash
import OtaUpdater.Device.Confinement
import OtaUpdater.Device.AvrFlash
import OtaUpdater.Device.AvrFlashRules
import OtaUpdater.Device.Repeat
import OtaUpdater.Lib.Lag
import OtaUpdater.Device.SpiPump
import OtaUpdater.Lib.Serial
import OtaUpdater.Lib.Polling
import OtaUpdater.Device.SoftuartPump
import OtaUpdater.Device.Rp2350Flash
import OtaUpdater.Device.Rp2350FlashRules
import OtaUpdater.Device.Rp2350SinglePass
import OtaUpdater.Device.Twi
import OtaUpdater.Device.TwiLink
import OtaUpdater.Device.TwiServe
import OtaUpdater.Device.TwiMain
import OtaUpdater.Device.TwiBoot
import OtaUpdater.Agreement.Codec
import OtaUpdater.Device.LinkStream
import OtaUpdater.Device.LinkFrames
import OtaUpdater.Host.Stream
import OtaUpdater.Host.Uart
import OtaUpdater.Agreement.Stream
import OtaUpdater.Host.Image
import OtaUpdater.Host.Ihex
import OtaUpdater.Host.IhexDigits
import OtaUpdater.Host.IhexRules
import OtaUpdater.Host.IhexGrammar
import OtaUpdater.Host.ImageRules
import OtaUpdater.Host.Transport
import OtaUpdater.Host.EraseWait
import OtaUpdater.Host.SoftUart
import OtaUpdater.Host.Install
import OtaUpdater.Host.InstallRules
import OtaUpdater.Agreement.Corruption
import OtaUpdater.Agreement.Framing
import OtaUpdater.Agreement.Gate
import OtaUpdater.Agreement.Pages
import OtaUpdater.Agreement.AvrUpdate
import OtaUpdater.Agreement.Softuart
import OtaUpdater.Agreement.WritePage
import OtaUpdater.Device.LinkDelivery
import OtaUpdater.Device.MainLoop
import OtaUpdater.Device.Replies
import OtaUpdater.Host.Session
import OtaUpdater.Host.FrameErrors
import OtaUpdater.Host.FrameRules
import OtaUpdater.Host.SessionRules
import OtaUpdater.Host.Babble
import OtaUpdater.Host.Exchange
import OtaUpdater.Host.Failures
import OtaUpdater.Host.UartRules
import OtaUpdater.System.Answers
import OtaUpdater.System.Bench
import OtaUpdater.System.Attempts
import OtaUpdater.System.Stages
import OtaUpdater.System.Recovery
import OtaUpdater.System.Soundness
import OtaUpdater.System.Commit
import OtaUpdater.System.Resync
import OtaUpdater.System.Freshness
import OtaUpdater.System.Plant
import OtaUpdater.System.Boards
import OtaUpdater.System.Rp2350
import OtaUpdater.System.Avr
import OtaUpdater.System.Line
import OtaUpdater.System.LineUpdate
import OtaUpdater.System.LinePrompt
import OtaUpdater.Host.I2c
import OtaUpdater.System.I2cBus
import OtaUpdater.System.I2cTransactions
import OtaUpdater.System.I2cUpdate
import OtaUpdater.Lib.Cut
import OtaUpdater.Device.FlashOps
import OtaUpdater.Conformance.Sim
import OtaUpdater.Conformance.SimRules
import OtaUpdater.Conformance.Pump
import OtaUpdater.Conformance.Transports
import OtaUpdater.Conformance.Campaigns
import OtaUpdater.Conformance.PowerCut
import OtaUpdater.Device.Entry
import OtaUpdater.Lib.Fair
import OtaUpdater.Device.UartPump
